import Bindery.Proofs.RenderContext
import Bindery.Proofs.Schema.Contents
import Bindery.Proofs.Sequence
import Bindery.Proofs.Target.SourceStyle

/-
  This file is about bodies that describe types as they should:
  by fields with names and types, by alternatives, or not at all.
  Whatever else is in such a body, its type can be written.

  Key definitions include:
    * `FieldDecl`
    * `Shape`
    * `Shape.ofBody?`
    * `Schema.IsDescribed`
    * `Schema.shapes?`
    * `Shape.Fits`

  Key theorems include:
    * `Schema.IsDescribed.exists_shapes`
    * `Schema.mapM_of_shapes`
    * `Shape.fits_ofBody`
    * `SourceStyle.typesOf_of_shapes`
    * `SourceStyle.shapedType_mem_types`
-/

namespace Bindery

open Template

------------------------------------------------------------
-- Shapes
------------------------------------------------------------

/- A field of a type. -/
structure FieldDecl where
  name : String
  type : String
deriving DecidableEq, Repr

/- What a type consists of. -/
inductive Shape where
| record (fields : List FieldDecl)
| choice (variants : List String)
| unspecified
deriving DecidableEq, Repr

/- The field that an object with two texts describes. -/
def fieldOf? : Json → Option FieldDecl
| .object members => do
    let name ← (Keyed.get? "name" members).bind textOf?
    let type ← (Keyed.get? "type" members).bind textOf?
    some ⟨name, type⟩
| _ => none

/-
  The shape that a body describes: an object with a list of
  fields, an object without fields but with a list of
  alternatives, or an object with neither.
-/
def Shape.ofBody? : Json → Option Shape
| .object members =>
    match Keyed.get? "fields" members with
    | some fields => (listOf? fieldOf? fields).map .record
    | none =>
        match Keyed.get? "variants" members with
        | some variants => (listOf? textOf? variants).map .choice
        | none => some .unspecified
| _ => none

namespace Schema

/- Whether every body of a schema describes a shape. -/
def IsDescribed (schema : Schema) : Prop :=
  ∀ d ∈ schema.decls, ∃ shape, Shape.ofBody? d.body = some shape

instance (schema : Schema) : Decidable schema.IsDescribed :=
  decidable_of_iff
    (∀ d ∈ schema.decls, (Shape.ofBody? d.body).isSome = true)
    (by simp only [IsDescribed, Option.isSome_iff_exists])

/- The shapes under the qualified names, in the order of these. -/
def shapes? (schema : Schema) : Option (List (String × Shape)) :=
  (RenderContext.ofSchema schema).declsByName.mapM
    fun entry => (Shape.ofBody? entry.2).map fun shape =>
      (entry.1, shape)

variable {schema : Schema}

/- A body under a name is the body of a declaration. -/
theorem exists_decl_of_declsByName
    {entry : String × Json}
    (h : entry ∈ (RenderContext.ofSchema schema).declsByName) :
    ∃ d ∈ schema.decls, (d.qualifiedName, d.body) = entry := by
  change entry ∈ (declareAll [] schema.decls).1 at h
  rw [fst_declareAll] at h
  rcases Keyed.mem_putAll h with hAdded | hBefore
  · exact List.mem_map.mp hAdded
  · exact absurd hBefore List.not_mem_nil

theorem IsDescribed.exists_shapes (h : schema.IsDescribed) :
    ∃ entries, schema.shapes? = some entries := by
  refine exists_mapM_eq_some fun entry hEntry => ?_
  rcases exists_decl_of_declsByName hEntry with ⟨d, hd, rfl⟩
  rcases h d hd with ⟨shape, hShape⟩
  exact ⟨(d.qualifiedName, shape), by rw [hShape, Option.map_some]⟩

/- What can be made of every shape can be made of all bodies. -/
theorem mapM_of_shapes
    {ε α : Type}
    {make : String × Json → Except ε α}
    {shaped : String × Shape → α}
    (hMake : ∀ {name : String} {body : Json} {shape : Shape},
      Shape.ofBody? body = some shape →
      make (name, body) = .ok (shaped (name, shape)))
    {entries : List (String × Shape)}
    (h : schema.shapes? = some entries) :
    (RenderContext.ofSchema schema).declsByName.mapM make =
      .ok (entries.map shaped) := by
  rw [mapM_eq_ok_iff, List.forall₂_map_right_iff]
  refine (mapM_eq_some_iff_forall₂.mp h).imp fun entry other hShaped => ?_
  rcases Option.map_eq_some_iff.mp hShaped with ⟨shape, hShape, rfl⟩
  exact hMake hShape

end Schema

------------------------------------------------------------
-- What Templates See
------------------------------------------------------------

/- A value from which the name and the type of a field are read. -/
structure FieldDecl.IsReadFrom
    (value : Value)
    (field : FieldDecl) : Prop where
  name : value.part "name" = .plain field.name
  type : value.part "type" = .plain field.type

/- The form of a body that describes a shape. -/
inductive Shape.Fits : Shape → Form → Prop
| record {items : List Value} {fields : List FieldDecl} :
    List.Forall₂ FieldDecl.IsReadFrom items fields →
    Fits (.record fields) (.record (.list items))
| choice {variants : List String} :
    Fits (.choice variants) (.choice (.list (variants.map .plain)))
| unspecified : Fits .unspecified .unspecified

theorem isReadFrom_of_fieldOf?
    {j : Json}
    {field : FieldDecl}
    (h : fieldOf? j = some field) :
    field.IsReadFrom (Value.ofJson j) := by
  cases j with
  | object members =>
      simp only [fieldOf?, Option.bind_eq_bind,
        Option.bind_eq_some_iff, textOf?_eq_some_iff] at h
      rcases h with
        ⟨name, ⟨_, hName, rfl⟩, type, ⟨_, hType, rfl⟩, hField⟩
      obtain rfl := Option.some.inj hField
      constructor
      · rw [Value.part, Value.attribute?_ofJson_object, hName]
        rfl
      · rw [Value.part, Value.attribute?_ofJson_object, hType]
        rfl
  | _ => simp [fieldOf?] at h

/- The form of a body is what its shape calls for. -/
theorem Shape.fits_ofBody
    {body : Json}
    {shape : Shape}
    (h : Shape.ofBody? body = some shape) :
    shape.Fits (Form.ofBody body) := by
  cases body with
  | object members =>
      have hPart (word : String) :
          (Value.ofJson (.object members)).part word =
            ((Keyed.get? word members).map Value.ofJson).getD
              .undefined := by
        rw [Value.part, Value.attribute?_ofJson_object]
      rw [Form.ofBody, hPart, hPart]
      rw [Shape.ofBody?] at h
      cases hFields : Keyed.get? "fields" members with
      | some fields =>
          simp only [hFields, Option.map_eq_some_iff,
            listOf?_eq_some_iff] at h
          rcases h with ⟨described, ⟨items, rfl, hItems⟩, rfl⟩
          have hAll := mapM_eq_some_iff_forall₂.mp hItems
          have hValues : List.Forall₂ FieldDecl.IsReadFrom
              (items.map Value.ofJson) described :=
            List.forall₂_map_left_iff.mpr
              (hAll.imp fun _ _ => isReadFrom_of_fieldOf?)
          rw [← Value.ofItems_eq_map] at hValues
          exact Fits.record hValues
      | none =>
          simp only [hFields] at h
          cases hVariants : Keyed.get? "variants" members with
          | some variants =>
              simp only [hVariants, Option.map_eq_some_iff,
                listOf?_textOf?_iff] at h
              rcases h with ⟨described, rfl, rfl⟩
              have hFits := @Fits.choice described
              rw [← Value.ofItems_map_text] at hFits
              exact hFits
          | none =>
              simp only [hVariants, Option.some.injEq] at h
              subst h
              exact Fits.unspecified
  | _ => simp [Shape.ofBody?] at h

------------------------------------------------------------
-- Types
------------------------------------------------------------

namespace SourceStyle

variable {style : SourceStyle} {schema : Schema}
variable {write : Shape → String × String}

/- The type for a qualified name and a shape. -/
def shapedType
    (write : Shape → String × String)
    (entry : String × Shape) : TypeDecl :=
  ⟨entry.1, (write entry.2).1, identifierOf entry.1, (write entry.2).2⟩

theorem typeOf_of_shape
    (hDefine : ∀ {shape : Shape} {form : Form},
      shape.Fits form → style.define form = .ok (write shape))
    {name : String}
    {body : Json}
    {shape : Shape}
    (h : Shape.ofBody? body = some shape) :
    style.typeOf (name, body) = .ok (shapedType write (name, shape)) := by
  rw [typeOf, hDefine (Shape.fits_ofBody h)]
  rfl

/- If shapes can be written, so can the types of a schema. -/
theorem typesOf_of_shapes
    (hDefine : ∀ {shape : Shape} {form : Form},
      shape.Fits form → style.define form = .ok (write shape))
    {entries : List (String × Shape)}
    (h : schema.shapes? = some entries) :
    style.typesOf schema = .ok (entries.map (shapedType write)) :=
  Schema.mapM_of_shapes (typeOf_of_shape hDefine) h

/- A body of a known shape is written as its shape calls for. -/
theorem shapedType_mem_types
    (hDefine : ∀ {shape : Shape} {form : Form},
      shape.Fits form → style.define form = .ok (write shape))
    {types : List TypeDecl}
    {entry : String × Json}
    {shape : Shape}
    (hTypes : style.typesOf schema = .ok types)
    (hEntry : entry ∈ (RenderContext.ofSchema schema).declsByName)
    (hShape : Shape.ofBody? entry.2 = some shape) :
    shapedType write (entry.1, shape) ∈ types := by
  rcases exists_of_mem_mapM hTypes hEntry with ⟨t, ht, hType⟩
  have hWritten := @typeOf_of_shape _ _ hDefine entry.1 _ _ hShape
  rwa [Except.ok.inj (hWritten.symm.trans hType)]

end SourceStyle

end Bindery

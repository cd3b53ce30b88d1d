import Bindery.Proofs.Template.Document

/-
  This file says what the pieces of a template come to.  A loop
  gives what its body gives for one element after the other,
  and leaves the variables around it as they are, if its body
  has only local variables of some names.

  Key definitions include:
    * `Frame.Only`
    * `joinEach`
    * `Gives`

  Key theorems include:
    * `Globals.lookup_cons`
    * `execAll_cons_of_ok`
    * `execAll_append_of_ok`
    * `execAll_enclosed`
    * `runLoop_gives`
    * `execStmt_loop_orElse`
    * `execStmt_loop`
    * `execStmt_loop_elements`
-/

namespace Bindery.Template

------------------------------------------------------------
-- Local Variables
------------------------------------------------------------

/- A frame after an assignment. -/
def Frame.put
    (word : String)
    (value : Value)
    (frame : Frame) : Frame :=
  { frame with locals := Keyed.put word value frame.locals }

/- The local variables of a frame have none but some names. -/
def Frame.Only (names : List String) (frame : Frame) : Prop :=
  ∀ name, name ∉ names → Keyed.get? name frame.locals = none

section Locals

variable {names : List String} {frame : Frame} {outer : Scope}
variable {word : String}

theorem Frame.only_empty (names : List String) :
    Frame.empty.Only names := by
  intro name _
  rfl

theorem Frame.Only.setLoop
    (h : frame.Only names)
    (state : Option Value) :
    Frame.Only names { frame with loop := state } :=
  h

theorem Frame.Only.put
    (h : frame.Only names)
    (hWord : word ∈ names)
    (value : Value) :
    (frame.put word value).Only names := by
  intro name hName
  rw [Frame.put, Keyed.get?_put, if_neg, h name hName]
  rintro rfl
  exact hName hWord

theorem Scope.lookup?_cons
    (frame : Frame)
    (outer : Scope)
    (hLoop : word ≠ "loop") :
    Scope.lookup? word (frame :: outer) =
      (Keyed.get? word frame.locals).or
        (Scope.lookup? word outer) := by
  rw [Scope.lookup?]
  cases Keyed.get? word frame.locals with
  | some value => rfl
  | none => cases frame.loop <;> simp [hLoop]

/- A variable of the innermost frame, or one of those around it. -/
theorem Globals.lookup_cons
    (globals : Globals)
    (frame : Frame)
    (outer : Scope)
    (hLoop : word ≠ "loop") :
    globals.lookup (frame :: outer) word =
      (Keyed.get? word frame.locals).getD
        (globals.lookup outer word) := by
  unfold Globals.lookup
  rw [Scope.lookup?_cons frame outer hLoop]
  cases Keyed.get? word frame.locals <;> rfl

/- A variable that is not local is found around the frame. -/
theorem Frame.Only.lookup
    (h : frame.Only names)
    (globals : Globals)
    (outer : Scope)
    (hWord : word ∉ names)
    (hLoop : word ≠ "loop") :
    globals.lookup (frame :: outer) word =
      globals.lookup outer word := by
  rw [Globals.lookup_cons globals frame outer hLoop, h word hWord]
  rfl

/- A variable that was assigned last. -/
theorem Globals.lookup_put
    (globals : Globals)
    (frame : Frame)
    (outer : Scope)
    (value : Value)
    (hLoop : word ≠ "loop") :
    globals.lookup (frame.put word value :: outer) word = value := by
  rw [Globals.lookup_cons _ _ _ hLoop, Frame.put, Keyed.get?_put,
    if_pos rfl]
  rfl

theorem Globals.lookup_put_of_ne
    {other : String}
    (globals : Globals)
    (frame : Frame)
    (outer : Scope)
    (value : Value)
    (hOther : other ≠ word)
    (hLoop : other ≠ "loop") :
    globals.lookup (frame.put word value :: outer) other =
      globals.lookup (frame :: outer) other := by
  rw [Globals.lookup_cons _ _ _ hLoop, Globals.lookup_cons _ _ _ hLoop,
    Frame.put, Keyed.get?_put, if_neg hOther.symm]

end Locals

------------------------------------------------------------
-- Output
------------------------------------------------------------

/- Without a mode that escapes, values are written as printed. -/
@[simp] theorem EscapeMode.write_verbatim (value : Value) :
    EscapeMode.verbatim.write value = .ok value.display := by
  cases value with
  | text content safe => cases safe <;> rfl
  | _ => rfl

------------------------------------------------------------
-- Sequences
------------------------------------------------------------

section Sequences

variable {setting : Setting} {scope : Scope}
variable {stmt : Stmt}

theorem execAll_singleton
    (setting : Setting)
    (stmt : Stmt)
    (scope : Scope) :
    execAll setting [stmt] scope = execStmt setting stmt scope := by
  rw [execAll]
  cases execStmt setting stmt scope with
  | error e => rfl
  | ok result =>
      change Except.ok (result.1 ++ "", result.2) = _
      rw [String.append_empty]

theorem execStmt_text
    (setting : Setting)
    (s : String)
    (scope : Scope) :
    execStmt setting (.text s) scope = .ok (s, scope) := rfl

/- What a statement gives stands before what the rest gives. -/
theorem execAll_cons_of_ok
    {text : String}
    {inner : Scope}
    (h : execStmt setting stmt scope = .ok (text, inner))
    (rest : List Stmt) :
    execAll setting (stmt :: rest) scope =
      (execAll setting rest inner).map
        fun (others, scope) => (text ++ others, scope) := by
  rw [execAll, h]
  change (do
    let (others, scope) ← execAll setting rest inner
    .ok (text ++ others, scope)) = _
  cases execAll setting rest inner <;> rfl

/- What statements give stands before what the rest gives. -/
theorem execAll_append_of_ok
    {stmts : List Stmt}
    {text : String}
    {inner : Scope}
    (h : execAll setting stmts scope = .ok (text, inner))
    (rest : List Stmt) :
    execAll setting (stmts ++ rest) scope =
      (execAll setting rest inner).map
        fun (others, scope) => (text ++ others, scope) := by
  induction stmts generalizing scope text with
  | nil =>
      obtain ⟨rfl, rfl⟩ : "" = text ∧ scope = inner := by
        simpa [execAll] using h
      rw [List.nil_append]
      cases execAll setting rest scope with
      | error e => rfl
      | ok result => simp [Except.map]
  | cons stmt others ih =>
      cases hStmt : execStmt setting stmt scope with
      | error e => simp [execAll, hStmt, Bind.bind, Except.bind] at h
      | ok result =>
          rcases result with ⟨first, next⟩
          rw [execAll_cons_of_ok hStmt] at h
          cases hOthers : execAll setting others next with
          | error e => simp [hOthers, Except.map] at h
          | ok second =>
              rcases second with ⟨second, last⟩
              obtain ⟨rfl, rfl⟩ : first ++ second = text ∧ last = inner := by
                simpa [hOthers, Except.map] using h
              rw [List.cons_append, execAll_cons_of_ok hStmt, ih hOthers]
              cases execAll setting rest last with
              | error e => rfl
              | ok final => simp [Except.map, String.append_assoc]

/- What a statement gives stands between two texts. -/
theorem execAll_enclosed
    {content : Except TemplateError String}
    (h : execStmt setting stmt scope =
      content.map fun text => (text, scope))
    (before after : String) :
    execAll setting [.text before, stmt, .text after] scope =
      (content.map fun text => before ++ text ++ after).map
        fun text => (text, scope) := by
  rw [execAll_cons_of_ok (execStmt_text _ _ _)]
  cases content with
  | error e =>
      rw [execAll, h]
      rfl
  | ok text =>
      rw [execAll_cons_of_ok h, execAll_singleton, execStmt_text]
      simp only [Except.map, String.append_assoc]

end Sequences

------------------------------------------------------------
-- Loops
------------------------------------------------------------

/- The texts of elements, one after the other. -/
def joinEach
    {α ε : Type}
    (text : α → Except ε String)
    (items : List α) : Except ε String := do
  let texts ← items.mapM text
  .ok (String.join texts)

theorem joinEach_cons
    {α ε : Type}
    (text : α → Except ε String)
    (item : α)
    (rest : List α) :
    joinEach text (item :: rest) =
      (do
        let first ← text item
        let others ← joinEach text rest
        .ok (first ++ others)) := by
  rw [joinEach, joinEach, List.mapM_cons]
  cases text item with
  | error => rfl
  | ok first =>
      cases rest.mapM text with
      | error => rfl
      | ok texts => exact congrArg Except.ok String.join_cons

/- If every element has a text, so have all of them. -/
theorem joinEach_ok
    {α ε : Type}
    (text : α → String)
    (items : List α) :
    joinEach (fun item => (.ok (text item) : Except ε String)) items =
      .ok (String.join (items.map text)) := by
  induction items with
  | nil => rfl
  | cons item rest ih =>
      rw [joinEach_cons, ih, List.map_cons, String.join_cons]
      rfl

/- Making something of each element first, and a text of it then. -/
theorem joinEach_map
    {α β ε : Type}
    (make : α → Except ε β)
    (write : β → String)
    (items : List α) :
    joinEach (fun item => (make item).map write) items =
      (items.mapM make).map fun made => String.join (made.map write) := by
  induction items with
  | nil => rfl
  | cons item rest ih =>
      rw [joinEach_cons, ih, List.mapM_cons]
      cases make item with
      | error => rfl
      | ok first =>
          cases rest.mapM make with
          | error => rfl
          | ok made => exact congrArg Except.ok String.join_cons.symm

/- What all that is made of elements keeps from them. -/
theorem map_of_mapM
    {α β γ ε : Type}
    {make : α → Except ε β}
    {kept : β → γ}
    {given : α → γ}
    {items : List α}
    {made : List β}
    (hMake : ∀ item result, make item = .ok result →
      kept result = given item)
    (h : items.mapM make = .ok made) :
    made.map kept = items.map given := by
  induction items generalizing made with
  | nil =>
      cases h
      rfl
  | cons item rest ih =>
      rw [List.mapM_cons] at h
      cases hFirst : make item with
      | error => simp [hFirst, Bind.bind, Except.bind] at h
      | ok first =>
          cases hRest : rest.mapM make with
          | error => simp [hFirst, hRest, Bind.bind, Except.bind] at h
          | ok others =>
              rw [hFirst, hRest] at h
              cases h
              rw [List.map_cons, List.map_cons, ih hRest,
                hMake item first hFirst]

/-
  A piece of a template gives a text, and nothing but some local
  variables of the innermost frame may have changed then, or it
  fails.
-/
inductive Gives (names : List String) (outer : Scope) :
    Output → Except TemplateError String → Prop
| ok {text : String} {frame : Frame} :
    frame.Only names →
    Gives names outer (.ok (text, frame :: outer)) (.ok text)
| error {e : TemplateError} :
    Gives names outer (.error e) (.error e)

section Loops

variable {α : Type} {names : List String} {outer : Scope}
variable {value : α → Value} {text : α → Except TemplateError String}

/- What does not change any variable. -/
theorem Gives.of_eq
    {frame : Frame}
    {output : Output}
    {result : Except TemplateError String}
    (hFrame : frame.Only names)
    (hOutput : output =
      result.map fun text => (text, frame :: outer)) :
    Gives names outer output result := by
  subst hOutput
  cases result with
  | ok text => exact .ok hFrame
  | error e => exact .error

/- One piece after another. -/
theorem Gives.append
    {output : Output}
    {next : Scope → Output}
    {first second : Except TemplateError String}
    (hFirst : Gives names outer output first)
    (hNext : ∀ frame : Frame, frame.Only names →
      Gives names outer (next (frame :: outer)) second) :
    Gives names outer
      (do
        let (text, scope) ← output
        let (others, scope) ← next scope
        .ok (text ++ others, scope))
      (do
        let text ← first
        let others ← second
        .ok (text ++ others)) := by
  cases hFirst with
  | error => exact .error
  | @ok text frame hFrame =>
      have hSecond := hNext frame hFrame
      change Gives names outer
        (do
          let (others, scope) ← next (frame :: outer)
          .ok (text ++ others, scope)) _
      generalize next (frame :: outer) = output at hSecond ⊢
      cases hSecond with
      | error => exact .error
      | ok hLast => exact .ok hLast

/- A loop gives what its body gives, one after the other. -/
theorem runLoop_gives
    {bind : Value → Scope → Except TemplateError Scope}
    {run : Scope → Output}
    {length index : Nat}
    {previous : Value}
    {items : List α}
    {frame : Frame}
    (hFrame : frame.Only names)
    (hBody : ∀ item ∈ items, ∀ frame : Frame, frame.Only names →
      Gives names outer
        (do
          let inner ← bind (value item) (frame :: outer)
          run inner)
        (text item)) :
    Gives names outer
      (runLoop bind run length index previous (items.map value)
        (frame :: outer))
      (joinEach text items) := by
  -- The induction is on the elements; each round ends in a frame
  -- that the next one can start from.
  induction items generalizing index previous frame with
  | nil => exact .ok hFrame
  | cons item rest ih =>
      rw [List.forall_mem_cons] at hBody
      have hRound := hBody.1 _ (hFrame.setLoop
        (some (loopValue index length previous
          ((rest.map value).head?.getD .undefined))))
      have hAll := hRound.append fun _ hNext =>
        @ih (index + 1) (value item) _ hNext hBody.2
      rw [List.map_cons, runLoop, joinEach_cons, ← bind_assoc]
      exact hAll

/-
  A loop over some elements gives what its body gives for each,
  and leaves all variables as they are.  If there are none, the
  statements for that case are run.
-/
theorem execStmt_loop_orElse
    {setting : Setting}
    {target : Target}
    {source : Expr}
    {body orElse : List Stmt}
    {subject : Value}
    {items : List α}
    (hSource : evalExpr setting.globals outer source = .ok subject)
    (hItems : subject.elements = .ok (items.map value))
    (hBody : ∀ item ∈ items, ∀ frame : Frame, frame.Only names →
      Gives names outer
        (do
          let inner ← assignTo setting.globals target (value item)
            (frame :: outer)
          execAll setting body inner)
        (text item)) :
    execStmt setting (.loop target source none body orElse) outer =
      if items.isEmpty then execAll setting orElse outer
      else (joinEach text items).map fun text => (text, outer) := by
  have hLoop := @runLoop_gives _ _ _ _ _
    (assignTo setting.globals target) (execAll setting body)
    (items.map value).length 0 .undefined _ _
    (Frame.only_empty names) hBody
  rw [execStmt, hSource]
  change (do
    let items ← subject.elements
    if items.isEmpty then execAll setting orElse outer
    else do
      let (output, inner) ←
        runLoop (assignTo setting.globals target) (execAll setting body)
          items.length 0 .undefined items (Frame.empty :: outer)
      .ok (output, inner.tail)) = _
  rw [hItems]
  cases items with
  | nil => rfl
  | cons item rest =>
      change (do
        let (output, inner) ←
          runLoop (assignTo setting.globals target)
            (execAll setting body) ((item :: rest).map value).length 0
            .undefined ((item :: rest).map value) (Frame.empty :: outer)
        .ok (output, inner.tail)) =
          (joinEach text (item :: rest)).map fun text => (text, outer)
      generalize runLoop _ _ _ _ _ _ _ = output at hLoop ⊢
      generalize joinEach _ _ = result at hLoop ⊢
      cases hLoop <;> rfl

/- A loop that does nothing if there are no elements. -/
theorem execStmt_loop
    {setting : Setting}
    {target : Target}
    {source : Expr}
    {body : List Stmt}
    {subject : Value}
    {items : List α}
    (hSource : evalExpr setting.globals outer source = .ok subject)
    (hItems : subject.elements = .ok (items.map value))
    (hBody : ∀ item ∈ items, ∀ frame : Frame, frame.Only names →
      Gives names outer
        (do
          let inner ← assignTo setting.globals target (value item)
            (frame :: outer)
          execAll setting body inner)
        (text item)) :
    execStmt setting (.loop target source none body []) outer =
      (joinEach text items).map fun text => (text, outer) := by
  rw [execStmt_loop_orElse hSource hItems hBody]
  cases items <;> rfl

/- A loop over a value, which fails if it cannot be gone through. -/
theorem execStmt_loop_elements
    {setting : Setting}
    {target : Target}
    {source : Expr}
    {body orElse : List Stmt}
    {subject : Value}
    {text : Value → Except TemplateError String}
    (hSource : evalExpr setting.globals outer source = .ok subject)
    (hBody : ∀ items, subject.elements = .ok items → ∀ item ∈ items,
      ∀ frame : Frame, frame.Only names →
        Gives names outer
          (do
            let inner ← assignTo setting.globals target item
              (frame :: outer)
            execAll setting body inner)
          (text item)) :
    execStmt setting (.loop target source none body orElse) outer =
      (do
        let items ← subject.elements
        if items.isEmpty then execAll setting orElse outer
        else (joinEach text items).map fun text => (text, outer)) := by
  cases hItems : subject.elements with
  | ok items =>
      exact execStmt_loop_orElse hSource (by rw [hItems, List.map_id'])
        (hBody items hItems)
  | error e =>
      rw [execStmt, hSource]
      change (do
        let items ← subject.elements
        _) = _
      rw [hItems]
      rfl

end Loops

end Bindery.Template

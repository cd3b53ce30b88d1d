import Bindery.Target.Builtin.Basic

/-
  This file defines the target for TypeScript.

  Key definitions include:
    * `typesTemplate`
    * `indexTemplate`
    * `opaqueType`
    * `blobType`
    * `basetypes`
    * `target`
-/

namespace Bindery.Builtin.TypeScript

/- The template of the module with the types. -/
def typesTemplate : String :=
  ofLines
    ["// Code generated by declgen. DO NOT EDIT.",
      "",
      "import \x7b Opaque \x7d from \"./rt/Opaque\";",
      "import * as rt from \"./rt/basetypes\";",
      "\x7b%- for name, decl in decls_by_name|items %\x7d",
      "",
      "/** \x7b\x7b name \x7d\x7d */",
      "\x7b%- if decl.fields is defined %\x7d",
      "export interface \x7b\x7b name|replace(\"::\", \"_\") \x7d\x7d \x7b",
      "\x7b%- for field in decl.fields %\x7d",
      "  \x7b\x7b field.name \x7d\x7d: \x7b% if \"::\" in field.type %\x7d\x7b\x7b field.type|replace(\"::\", \"_\") \x7d\x7d\x7b% else %\x7drt.\x7b\x7b field.type \x7d\x7d\x7b% endif %\x7d;",
      "\x7b%- endfor %\x7d",
      "\x7d",
      "\x7b%- elif decl.variants is defined %\x7d",
      "export type \x7b\x7b name|replace(\"::\", \"_\") \x7d\x7d =",
      "\x7b%- for variant in decl.variants %\x7d",
      "  | \x7b\x7b variant|replace(\"::\", \"_\") \x7d\x7d",
      "\x7b%- else %\x7d never",
      "\x7b%- endfor %\x7d;",
      "\x7b%- else %\x7d",
      "export type \x7b\x7b name|replace(\"::\", \"_\") \x7d\x7d = Opaque;",
      "\x7b%- endif %\x7d",
      "\x7b%- endfor %\x7d"]

/- The template of the index of all modules. -/
def indexTemplate : String :=
  ofLines
    ["// Code generated by declgen. DO NOT EDIT.",
      "",
      "export * from \"./koinos\";",
      "export * from \"./rt/basetypes\";",
      "export \x7b Opaque \x7d from \"./rt/Opaque\";",
      "export \x7b VariableBlob \x7d from \"./rt/VariableBlob\";"]

/- The module with the type of unspecified data. -/
def opaqueType : String :=
  ofLines
    ["// Runtime support for declgen generated TypeScript sources.",
      "",
      "import \x7b VariableBlob \x7d from \"./VariableBlob\";",
      "",
      "/** A value whose layout is not described by the schema. */",
      "export class Opaque \x7b",
      "  readonly blob: VariableBlob;",
      "",
      "  constructor(blob: VariableBlob = new VariableBlob()) \x7b",
      "    this.blob = blob;",
      "  \x7d",
      "",
      "  static fromBytes(bytes: Uint8Array): Opaque \x7b",
      "    return new Opaque(new VariableBlob(bytes));",
      "  \x7d",
      "\x7d"]

/- The module with the type of byte sequences. -/
def blobType : String :=
  ofLines
    ["// Runtime support for declgen generated TypeScript sources.",
      "",
      "/** A length-prefixed byte string. */",
      "export class VariableBlob \x7b",
      "  readonly bytes: Uint8Array;",
      "",
      "  constructor(bytes: Uint8Array = new Uint8Array()) \x7b",
      "    this.bytes = bytes;",
      "  \x7d",
      "",
      "  get length(): number \x7b",
      "    return this.bytes.length;",
      "  \x7d",
      "",
      "  equals(other: VariableBlob): boolean \x7b",
      "    if (other.length !== this.length) \x7b",
      "      return false;",
      "    \x7d",
      "    return this.bytes.every((byte, i) => byte === other.bytes[i]);",
      "  \x7d",
      "\x7d"]

/- The module with basic types. -/
def basetypes : String :=
  ofLines
    ["// Runtime support for declgen generated TypeScript sources.",
      "",
      "import \x7b VariableBlob \x7d from \"./VariableBlob\";",
      "",
      "export type int8 = number;",
      "export type int16 = number;",
      "export type int32 = number;",
      "export type int64 = bigint;",
      "export type uint8 = number;",
      "export type uint16 = number;",
      "export type uint32 = number;",
      "export type uint64 = bigint;",
      "export type bool = boolean;",
      "export type text = string;",
      "export type bytes = VariableBlob;"]

/- The target. -/
def target : BuiltinTarget where
  id := "typescript"
  main := "koinos.ts"
  templates := ["koinos.ts.j2", "index.ts.j2"]
  files :=
    .directory
      [("rt", .directory
          [("Opaque.ts", .ofText opaqueType),
            ("VariableBlob.ts", .ofText blobType),
            ("basetypes.ts", .ofText basetypes)]),
        ("templates", .directory
          [("index.ts.j2", .ofText indexTemplate),
            ("koinos.ts.j2", .ofText typesTemplate)])]

end Bindery.Builtin.TypeScript

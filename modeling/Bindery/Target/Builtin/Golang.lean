import Bindery.Target.Builtin.Basic

/-
  This file defines the target for Go.

  Key definitions include:
    * `template`
    * `basetypes`
    * `target`
-/

namespace Bindery.Builtin.Golang

/- The template of the source file. -/
def template : String :=
  ofLines
    ["// Code generated by declgen. DO NOT EDIT.",
      "",
      "package koinos",
      "\x7b%- for name, decl in decls_by_name|items %\x7d",
      "",
      "// \x7b\x7b name|replace(\"::\", \"_\") \x7d\x7d is declared as \x7b\x7b name \x7d\x7d.",
      "\x7b%- if decl.fields is defined %\x7d",
      "type \x7b\x7b name|replace(\"::\", \"_\") \x7d\x7d struct \x7b",
      "\x7b%- for field in decl.fields %\x7d",
      "\t\x7b\x7b field.name|title \x7d\x7d \x7b\x7b field.type|replace(\"::\", \"_\") \x7d\x7d",
      "\x7b%- endfor %\x7d",
      "\x7d",
      "\x7b%- elif decl.variants is defined %\x7d",
      "type \x7b\x7b name|replace(\"::\", \"_\") \x7d\x7d struct \x7b",
      "\tValue interface\x7b\x7d",
      "\x7d",
      "\x7b%- else %\x7d",
      "type \x7b\x7b name|replace(\"::\", \"_\") \x7d\x7d = Opaque",
      "\x7b%- endif %\x7d",
      "\x7b%- endfor %\x7d"]

/- The file with basic types. -/
def basetypes : String :=
  ofLines
    ["// Runtime support for declgen generated Go sources.",
      "",
      "package koinos",
      "",
      "type (",
      "\tInt8    = int8",
      "\tInt16   = int16",
      "\tInt32   = int32",
      "\tInt64   = int64",
      "\tUint8   = uint8",
      "\tUint16  = uint16",
      "\tUint32  = uint32",
      "\tUint64  = uint64",
      "\tBoolean = bool",
      "\tString  = string",
      ")",
      "",
      "// VariableBlob is a length-prefixed byte string.",
      "type VariableBlob []byte",
      "",
      "// Opaque carries a value whose layout is not described by the schema.",
      "type Opaque struct \x7b",
      "\tBlob VariableBlob",
      "\x7d",
      "",
      "// NewOpaque wraps raw bytes.",
      "func NewOpaque(blob []byte) Opaque \x7b",
      "\treturn Opaque\x7bBlob: VariableBlob(blob)\x7d",
      "\x7d",
      "",
      "// Bytes returns the wrapped bytes.",
      "func (o Opaque) Bytes() []byte \x7b",
      "\treturn []byte(o.Blob)",
      "\x7d"]

/- The target. -/
def target : BuiltinTarget where
  id := "golang"
  main := "koinos.go"
  templates := ["koinos.go.j2"]
  files :=
    .directory
      [("rt", .directory [("basetypes.go", .ofText basetypes)]),
        ("templates", .directory [("koinos.go.j2", .ofText template)])]

end Bindery.Builtin.Golang

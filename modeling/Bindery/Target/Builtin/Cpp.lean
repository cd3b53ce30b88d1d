import Bindery.Target.Builtin.Basic

/-
  This file defines the target for C++.

  Key definitions include:
    * `forwardTemplate`
    * `typesTemplate`
    * `basetypes`
    * `opaqueType`
    * `target`
-/

namespace Bindery.Builtin.Cpp

/- The template of the header with forward declarations. -/
def forwardTemplate : String :=
  ofLines
    ["#pragma once",
      "// Code generated by declgen. DO NOT EDIT.",
      "",
      "#include \"../rt/basetypes.hpp\"",
      "\x7b%- for ns in decl_namespaces %\x7d",
      "",
      "\x7b% if ns %\x7dnamespace \x7b\x7b ns \x7d\x7d \x7b\x7b \"\x7b\" \x7d\x7d\x7b% endif %\x7d",
      "\x7b%- for decl in schema.decls %\x7d",
      "\x7b%- if decl[0][:-1]|fq_name == ns %\x7d",
      "struct \x7b\x7b decl[0]|last \x7d\x7d;",
      "\x7b%- endif %\x7d",
      "\x7b%- endfor %\x7d",
      "\x7b% if ns %\x7d\x7d // namespace \x7b\x7b ns \x7d\x7d\x7b% endif %\x7d",
      "\x7b%- endfor %\x7d"]

/- The template of the header with definitions. -/
def typesTemplate : String :=
  ofLines
    ["#pragma once",
      "// Code generated by declgen. DO NOT EDIT.",
      "",
      "#include \"types_fwd.hpp\"",
      "\x7b%- for name, decl in decls_by_name|items %\x7d",
      "\x7b%- set ns = name|namespace_of %\x7d",
      "",
      "\x7b% if ns %\x7dnamespace \x7b\x7b ns \x7d\x7d \x7b\x7b \"\x7b\" \x7d\x7d\x7b% endif %\x7d",
      "\x7b%- if decl.fields is defined %\x7d",
      "struct \x7b\x7b name|local_name \x7d\x7d \x7b",
      "\x7b%- for field in decl.fields %\x7d",
      "   \x7b\x7b field.type \x7d\x7d \x7b\x7b field.name \x7d\x7d;",
      "\x7b%- endfor %\x7d",
      "\x7d;",
      "\x7b%- elif decl.variants is defined %\x7d",
      "struct \x7b\x7b name|local_name \x7d\x7d : std::variant< \x7b\x7b decl.variants|join(\", \") \x7d\x7d > \x7b",
      "   using variant::variant;",
      "\x7d;",
      "\x7b%- else %\x7d",
      "struct \x7b\x7b name|local_name \x7d\x7d \x7b",
      "   koinos::opaque data;",
      "\x7d;",
      "\x7b%- endif %\x7d",
      "\x7b% if ns %\x7d\x7d // namespace \x7b\x7b ns \x7d\x7d\x7b% endif %\x7d",
      "\x7b%- endfor %\x7d"]

/- The header with basic types. -/
def basetypes : String :=
  ofLines
    ["#pragma once",
      "// Runtime support for declgen generated C++ sources.",
      "",
      "#include <cstdint>",
      "#include <string>",
      "#include <variant>",
      "#include <vector>",
      "",
      "#include \"opaque.hpp\"",
      "",
      "using int8 = std::int8_t;",
      "using int16 = std::int16_t;",
      "using int32 = std::int32_t;",
      "using int64 = std::int64_t;",
      "using uint8 = std::uint8_t;",
      "using uint16 = std::uint16_t;",
      "using uint32 = std::uint32_t;",
      "using uint64 = std::uint64_t;",
      "using boolean = bool;",
      "using string = std::string;"]

/- The header with the type of unspecified data. -/
def opaqueType : String :=
  ofLines
    ["#pragma once",
      "// Runtime support for declgen generated C++ sources.",
      "",
      "#include <cstdint>",
      "#include <vector>",
      "",
      "namespace koinos \x7b",
      "",
      "using variable_blob = std::vector< std::uint8_t >;",
      "",
      "// A value whose layout is not described by the schema.",
      "struct opaque \x7b",
      "   variable_blob blob;",
      "",
      "   bool operator==( const opaque& other ) const \x7b return blob == other.blob; \x7d",
      "   bool operator!=( const opaque& other ) const \x7b return !( *this == other ); \x7d",
      "\x7d;",
      "",
      "\x7d // namespace koinos"]

/- The target. -/
def target : BuiltinTarget where
  id := "cpp"
  main := "koinos/types.hpp"
  templates := ["koinos/types_fwd.hpp.j2", "koinos/types.hpp.j2"]
  files :=
    .directory
      [("rt", .directory
          [("basetypes.hpp", .ofText basetypes),
            ("opaque.hpp", .ofText opaqueType)]),
        ("templates", .directory
          [("koinos", .directory
              [("types.hpp.j2", .ofText typesTemplate),
                ("types_fwd.hpp.j2", .ofText forwardTemplate)])])]

end Bindery.Builtin.Cpp

/-
  This file defines why a template cannot be rendered.

  Key definitions include:
    * `TemplateError`
-/

namespace Bindery

/- Why a template cannot be rendered. -/
inductive TemplateError where
| notFound
| grammar
| badEscape
| undefinedValue
| invalidOperation
| unknownFilter
| unknownTest
| unknownFunction
| unknownMethod
| tooManyArguments
| missingArgument
| cannotUnpack
| badInclude
| badSerialization
deriving DecidableEq, Repr

end Bindery

import VmDeploy.Python.Dict

/-! TOML documents as `tomllib` returns them. -/

set_option autoImplicit false

namespace Toml

/-- Floats and dates are kept as they are written; a table is a dictionary. -/
inductive Value where
  | string (text : String)
  | integer (value : Int)
  | float (text : String)
  | boolean (value : Bool)
  | datetime (text : String)
  | array (elements : List Value)
  | table (entries : List (String × Value))

abbrev Table := Python.Dict String Value

end Toml

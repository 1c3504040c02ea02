import IdlStencil.Emission

/-!
A sample to try renderings on: the description of a small lights interface, and a table with a
section for a header file and one for the description of a test suite. Together they use every
kind of declaration that the table has snippets for.
-/

namespace IdlStencil.Sample

open Idl

/-! ## The unit -/

def statusFields : List Field :=
  [.enumerator "SUCCESS" (some (.number "0")), .enumerator "UNSUPPORTED" none,
    .enumerator "UNKNOWN" none]

def lightStateFields : List Field :=
  [{ name := "color", type := some (.scalar .uint32) },
    { name := "flashOnMs", type := some (.scalar .int32) },
    { name := "enabled", type := some (.scalar .bool) }]

/-- The annotation that lists sample values of an identifier. -/
def idRange : Annot :=
  Annot.addEntry { name := "range", line := 30 } "normal" [some (.number "1"), some (.number "2")]

def setLight : Function where
  name := "setLight"
  params := [
    { name := "id", type := some (.scalar .int32), annot := some idRange },
    { name := "state", type := some (.named "LightState" (.struct lightStateFields)) }]
  generates := [
    { name := "status",
      type := some (.named "Status" (.enum (.scalar .int32) statusFields)) }]
  annotations := [
    { name := "entry", line := 28 },
    { name := "next_calls", line := 29, values := [some (.string "getSupportedTypes")] }]

def getSupportedTypes : Function where
  name := "getSupportedTypes"
  generates := [{ name := "types", type := some (.vec (.scalar .int32)) }]
  annotations := [
    { name := "prev_calls", line := 33, values := [some (.string "setLight")] },
    { name := "exit", line := 34 }]

/-- The interface of the sample. -/
def lights : Interface where
  name := "ILight"
  annotations := [{ name := "hal_type", line := 20, values := [some (.string "light")] }]
  line := 21

def unit : PackageUnit where
  package := "android.hardware.light"
  version := ⟨2, 0⟩
  namespacePath := ["android", "hardware", "light", "V2_0"]
  imports := [["android", "hardware", "light", "V2_0", "types"]]
  interface := some lights
  declarations := [
    .const "MAX_LIGHTS" (.number "8"),
    .enum "Status" (.scalar .int32) statusFields,
    .struct "LightState" lightStateFields,
    .function setLight,
    .function getSupportedTypes]

/-! ## The table -/

/-- The snippets of a header file. -/
def header : List (String × String) := [
    ("file",
      "#ifndef HIDL_GENERATED_namespace_underscores_H\n" ++
      "#define HIDL_GENERATED_namespace_underscores_H\n\nimports_section\n" ++
      "namespace_open_section\ndeclarations\nenum class Call : uint32_t \x7b\n" ++
      "call_enum_list\n\x7d;\n\ncallback_decls\nnamespace_close_section\n" ++
      "#endif  // HIDL_GENERATED_namespace_underscores_H\n"),
    ("import_line", "#include <import_name.h>\n"),
    ("namespace_open_line", "namespace namespace_name \x7b\n"),
    ("namespace_close_line", "\x7d  // namespace namespace_name\n"),
    ("declare_const", "constexpr int32_t const_name = const_value;\n"),
    ("declare_enum", "enum class enum_name : enum_base_type \x7b enum_fields \x7d;\n"),
    ("declare_struct", "struct struct_name \x7b\nstruct_fields\x7d;\n"),
    ("declare_function", "virtual Return<void> function_name(params_and_callback) = 0;\n"),
    ("param_decl_named_all", "const named_type_name& param_name"),
    ("param_decl_vec_all", "const hidl_vec<base_type_name>& param_name"),
    ("callback_param", "function_name_cb _hidl_cb"),
    ("callback_decl_line", "using function_name_cb = std::function<void(return_param_list)>;\n"),
    ("first_call_enum", "  call_enum_name = 1,")]

/-- The snippets of a description for the test suite. -/
def suite : List (String × String) := [
    ("file",
      "component_class: HAL_HIDL\ncomponent_type: component_type_enum\n" ++
      "component_type_version: version_string\npackage: \"package_name\"\n" ++
      "imports_section\ninterface: \x7b\ncode_snips\x7d\n"),
    ("component_type_enum", "vts_ct_enum"),
    ("import_line", "import: \"import_name\"\n"),
    ("code_for_function",
      "  api: \x7b\n    name: \"function_name\"\nvts_argsvts_callflow  \x7d\n"),
    ("vts_args",
      "    arg_or_ret_type: \x7b\n      type: vts_type_type\n" ++
      "      scalar_type: \"type_name\"\nvts_values    \x7d\n"),
    ("vts_values", "      value: the_value\n"),
    ("vts_callflow", "    callflow: \x7b\nanno_entryanno_exitanno_calls    \x7d\n"),
    ("anno_entry", "      entry: true\n"),
    ("anno_exit", "      exit: true\n"),
    ("anno_calls", "      callflow_label: callflow_func_name\n")]

def table : Snippet.Table := .ofPairs [("header", header), ("vts", suite)]

end IdlStencil.Sample

import IdlStencil.Render.FieldList
import IdlStencil.Idl.Declaration

/-!
The facts about a function, and its place in the flow of calls.
-/

namespace IdlStencil.Render

open Template (Substitutions)
open Idl (Function)

/-- The parameters and the callback, with a comma where both are there. -/
def joinParams (params callback : String) : String :=
  if params.isEmpty || callback.isEmpty then params ++ callback else params ++ ", " ++ callback

/-- The parameter for the callback of a function that has one. -/
def callbackParam (cx : Context) (f : Function) : Noted String :=
  if f.hasCallback then do
    return flatten (← cx.snip "callback_param"
      [("function_name", f.name), ("package_name", cx.package)])
  else pure ""

/-- All parameters of a function, its callback included. -/
def paramsAndCallback (cx : Context) (f : Function) : Noted String := do
  let params ← commaList cx false f.params
  return joinParams params (← callbackParam cx f)

/-- An edge to another function. -/
def callEdge (cx : Context) (label target : String) : Noted String :=
  cx.snip "anno_calls" [("callflow_label", label), ("callflow_func_name", target)]

/-- The parts of a rendered call flow: the two markers and all edges. -/
structure CallParts where
  entry : String := ""
  exit : String := ""
  calls : String := ""

/-- Adds one fact to the parts. -/
def CallParts.add (cx : Context) (parts : CallParts) : CallFact → Noted CallParts
  | .entry => do return { parts with entry := ← cx.snip "anno_entry" [] }
  | .exit => do return { parts with exit := ← cx.snip "anno_exit" [] }
  | .next target => do return { parts with calls := parts.calls ++ (← callEdge cx "next" target) }
  | .prev target => do return { parts with calls := parts.calls ++ (← callEdge cx "prev" target) }

/-- Adds the facts in order. -/
def CallParts.addAll (cx : Context) (parts : CallParts) : List CallFact → Noted CallParts
  | [] => pure parts
  | fact :: facts => do CallParts.addAll cx (← parts.add cx fact) facts

/-- The facts of a call flow, rendered; nothing when every part is empty. Its errors are not noted
here. -/
def renderCallFlow (cx : Context) (flow : CallFlow) : Noted String := do
  let parts ← CallParts.addAll cx {} flow.facts
  if parts.entry.isEmpty && parts.exit.isEmpty && parts.calls.isEmpty then return ""
  else
    cx.snip "vts_callflow"
      [("anno_entry", parts.entry), ("anno_exit", parts.exit), ("anno_calls", parts.calls)]

/-- Notes each error. -/
def noteErrors : List AnnotError → Noted Unit
  | [] => pure ()
  | e :: es => do
    Noted.note e.diagnostic
    noteErrors es

/-- The call that hands the results to the callback, for a function that has one. -/
def callbackInvocation (cx : Context) (f : Function) : Noted String :=
  if f.hasCallback then do
    cx.snip "callback_invocation" [("return_param_names", ← nameList cx none f.generates)]
  else pure ""

/-- The facts about a function. What is wrong with its annotations is noted, so a pass asks for them
once. -/
def functionFacts (cx : Context) (f : Function) : Noted Substitutions := do
  let callParams ← commaList cx false f.params
  let allParams := joinParams callParams (← callbackParam cx f)
  let invocation ← callbackInvocation cx f
  let results ← suiteArgs cx "return_type_hidl" f.generates
  let arguments ← suiteArgs cx "arg" f.params
  let flow := CallFlow.parse f.annotations
  noteErrors flow.errors
  return [
    ("function_name", f.name),
    ("package_name", cx.interface),
    ("params_and_callback", allParams),
    ("call_param_list", callParams),
    ("return_param_list", ← commaList cx false f.generates),
    ("function_params_stubs", ← nameList cx none f.params),
    ("return_params_stubs", ← nameList cx (some "return_param_decl") f.generates),
    ("param_write_ret_snips", ← bySuffix cx "param_write_" f.generates),
    ("param_read_ret_snips", ← bySuffix cx "param_read_" f.generates),
    ("param_write_snips", ← bySuffix cx "param_write_" f.params),
    ("param_read_snips", ← bySuffix cx "param_read_" f.params),
    ("func_name_as_enum", dispatchToken f.name),
    ("param_decls", ← semiBlock cx f.params),
    ("callback_invocation", invocation),
    ("generates_variables", ← semiBlock cx f.generates),
    ("vts_args", results ++ arguments),
    ("vts_callflow", ← renderCallFlow cx flow)]

end IdlStencil.Render

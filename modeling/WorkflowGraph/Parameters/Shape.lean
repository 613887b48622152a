import WorkflowGraph.Parameters.Defaults
/-
Known malformed shapes of parameters and their correction. A fix renames a parameter whose proper name has no value, or
wraps a value that stands without its container; it reports what it changed.
-/
namespace WorkflowGraph

namespace Parameters

/-- parameters and the reports of what was changed in them -/
structure Fixed where
  params : Fields
  reports : List String

namespace Fixed

/-- the value of a parameter, null when it is not given -/
def get (f : Fixed) (name : String) : Value := Value.field name f.params

def has (f : Fixed) (name : String) : Bool := Table.has (.text name) f.params

/-- a parameter changed, with a report -/
def set (f : Fixed) (name : String) (v : Value) (report : String) : Fixed :=
  ⟨Table.put (.text name) v f.params, f.reports ++ [report]⟩

/-- a parameter given its proper name, unless a value already has that name -/
def rename (f : Fixed) (old new : String) : Fixed :=
  if f.has old && !hasValue (f.get new) then
    ⟨Table.put (.text new) (f.get old) (Table.remove (.text old) f.params), f.reports ++ [old ++ "->" ++ new]⟩
  else f

end Fixed

/-! ## Fixes by type -/

def fixSwitch (f : Fixed) : Fixed :=
  let f := f.rename "value" "value1"
  match f.get "rules" with
  | .list rules => f.set "rules" (object [("rules", .list rules)]) "rules list wrapped"
  | _ => f

/-- the recipients that a text lists, separated by commas; an expression is one recipient -/
def recipients (s : String) : List Value :=
  let parts := if s.toList.head? = some '=' then [s] else (Text.pieces ',' s).map Text.strip
  (parts.filter fun p => !p.isEmpty).map Value.text

def fixEmail (f : Fixed) : Fixed :=
  let f := ["sendTo", "toEmail", "to"].foldl (fun f old => f.rename old "toRecipients") f
  match f.get "toRecipients" with
  | .text s => f.set "toRecipients" (.list (recipients s)) "scalar recipient -> list"
  | .null => f
  | .list _ => f
  | v => f.set "toRecipients" (.list [.text v.toText]) "scalar recipient -> list"

def fixHttp (f : Fixed) : Fixed :=
  let f := f.rename "endpoint" "url"
  match f.get "method" with
  | .text s => if Text.upper s = s then f else f.set "method" (Text.upper s) "method upper-cased"
  | _ => f

def fixCron (f : Fixed) : Fixed :=
  if f.has "rule" && !hasValue (f.get "triggerTimes") then
    let times := object [("item", .list [object [("mode", "custom"), ("cronExpression", f.get "rule")]])]
    ⟨Table.put (.text "triggerTimes") times (Table.remove (.text "rule") f.params), f.reports ++ ["rule->triggerTimes"]⟩
  else f

/-- the names under which a set node keeps its values -/
def valueKinds : List String := ["string", "number", "boolean"]

def fixSet (f : Fixed) : Fixed :=
  match f.get "values" with
  | .object vals =>
    if vals.isEmpty || vals.all fun (k, _) => valueKinds.any fun w => k == .text w then f
    else
      let items := vals.map fun (k, v) => object [("name", .ofKey k), ("value", v)]
      f.set "values" (object [("string", .list items)]) "plain values -> string list"
  | _ => f

def fixIf (f : Fixed) : Fixed :=
  match f.get "conditions" with
  | .list conditions => f.set "conditions" (object [("boolean", .list conditions)]) "conditions list wrapped"
  | _ => f

/-- the fix of a short type -/
def fixOf? : String → Option (Fixed → Fixed)
  | "switch" => some fixSwitch
  | "emailSend" => some fixEmail
  | "httpRequest" => some fixHttp
  | "cron" => some fixCron
  | "set" => some fixSet
  | "if" => some fixIf
  | _ => none

/-- options that are no object, of a type that has options, replaced by none -/
def fixOptions (short : String) (f : Fixed) : Fixed :=
  if f.has "options" && Table.has (.text "options") (defaults short) && !(f.get "options").isObject then
    f.set "options" (object []) "options -> \x7b\x7d"
  else f

/-- the parameters of a short type with known malformed shapes corrected, and what was changed -/
def fixShapes (short : String) (params : Fields) : Fixed :=
  let start : Fixed := ⟨params, []⟩
  fixOptions short (((fixOf? short).map (· start)).getD start)

/-- parameters of any kind corrected; what is no object has no shape to correct -/
def fixValue (short : String) : Value → Except Fault (Value × List String)
  | .object params =>
    let f := fixShapes short params
    .ok (.object f.params, f.reports)
  | .list items =>
    let names (name : String) : Bool := items.any (· == .text name)
    if short = "cron" ∧ !names "rule" then .ok (.list items, [])
    else if (fixOf? short).isSome then .error .noFields
    else if names "options" && Table.has (.text "options") (defaults short) then .error .wrongKind
    else .ok (.list items, [])
  | .text s =>
    if short = "cron" ∧ !Text.contains s "rule" then .ok (.text s, [])
    else if (fixOf? short).isSome then .error .noFields
    else if Text.contains s "options" && Table.has (.text "options") (defaults short) then .error .wrongKind
    else .ok (.text s, [])
  | _ => if short = "set" ∨ short = "if" then .error .noFields else .error .wrongKind

end Parameters

end WorkflowGraph

import WorkflowGraph.Node
import WorkflowGraph.Text.Blank
/-
Parameters that node types require, with their defaults, and the canonical form of type tags. Defaults fill gaps only: a
given value always wins. Placeholders are recognisable, so that a document can be searched for values that a user
still has to supply.
-/
namespace WorkflowGraph

namespace Parameters

/-- an object of named fields -/
def object (fields : List (String × Value)) : Value := .object (fields.map fun (name, v) => (.text name, v))

/-! ## Placeholders -/

def placeholderUrl : String := "https://api.example.com/endpoint"

def placeholderEmail : String := "=\x7b\x7b $json.email \x7d\x7d"

def placeholderPhone : String := "=\x7b\x7b $json.phone \x7d\x7d"

def placeholderBroker : String := "mqtt://broker.example.com:1883"

def placeholderChat : String := "=\x7b\x7b $json.chatId \x7d\x7d"

/-- the expression for the message of an item -/
def messageExpression : String := "=\x7b\x7b $json.message \x7d\x7d"

/-! ## Defaults -/

/-- the required parameters of short types, with their defaults -/
def required : List (String × List (String × Value)) := [
  ("webhook", [("path", "/webhook"), ("httpMethod", "POST"), ("options", object [])]),
  ("scheduleTrigger", [("rule", object [("interval", .list [object [("field", "hours"), ("hoursInterval", .int 1)]])])]),
  ("cron", [("triggerTimes", object [("item", .list [object [("mode", "everyHour")]])])]),
  ("manualTrigger", []),
  ("errorTrigger", []),
  ("httpRequest", [("url", placeholderUrl), ("method", "GET"), ("options", object [])]),
  ("function", [("functionCode", "return items;")]),
  ("code", [("jsCode", "return items;")]),
  ("set", [("values", object []), ("options", object [])]),
  ("if", [("conditions", object [("boolean", .list [])])]),
  ("switch", [("dataType", "string"), ("value1", "=\x7b\x7b $json.value \x7d\x7d"),
    ("rules", object [("rules", .list [])]), ("fallbackOutput", .int (-1))]),
  ("merge", [("mode", "append"), ("options", object [])]),
  ("splitInBatches", [("batchSize", .int 10)]),
  ("respondToWebhook", [("options", object [])]),
  ("emailSend", [("toRecipients", .list [.text placeholderEmail]), ("subject", "Notification"),
    ("text", messageExpression), ("options", object [])]),
  ("twilio", [("operation", "sms"), ("from", "=\x7b\x7b $credentials.fromNumber \x7d\x7d"), ("to", placeholderPhone),
    ("message", messageExpression)]),
  ("whatsApp", [("operation", "send"), ("recipientPhoneNumber", placeholderPhone), ("textBody", messageExpression)]),
  ("mqtt", [("broker", placeholderBroker), ("topic", "flowsmith/events"), ("options", object [])]),
  ("slack", [("channel", "#general"), ("text", messageExpression)]),
  ("telegram", [("chatId", placeholderChat), ("text", messageExpression)]),
  ("postgres", [("operation", "executeQuery"), ("query", "SELECT 1")]),
  ("executeCommand", [("command", "echo ok")]),
  ("wait", [("amount", .int 1), ("unit", "seconds")])]

/-- the defaults of a short type -/
def defaults (short : String) : Fields :=
  ((required.lookup short).getD []).map fun (name, v) => (.text name, v)

def hasDefaults (short : String) : Bool := (required.lookup short).isSome

/-- the given parameters with the defaults of a short type where they give nothing -/
def fill (short : String) (given : Fields) : Fields := Table.putAll (defaults short) given

/-- the parameters of a node filled up; nothing given counts as no parameters -/
def fillValue (short : String) : Value → Except Fault Fields
  | .object given => .ok (fill short given)
  | v => if v.isFilled then .error .noFields else .ok (defaults short)

/-! ## Missing parameters -/

/-- the parameters that a short type cannot do without -/
def validated : List (String × List String) := [
  ("webhook", ["path"]),
  ("httpRequest", ["url"]),
  ("function", ["functionCode"]),
  ("code", ["jsCode"]),
  ("emailSend", ["toRecipients", "subject"]),
  ("switch", ["rules"]),
  ("twilio", ["to", "message"]),
  ("mqtt", ["broker", "topic"]),
  ("postgres", ["operation"]),
  ("executeCommand", ["command"])]

/-- whether a parameter is given: neither null nor a blank text -/
def hasValue : Value → Bool
  | .null => false
  | .text s => !Text.isBlankText s
  | _ => true

/-- the parameters that a node cannot do without and does not give -/
def missing (n : Node) : List String :=
  let given := (n.get "parameters").object?.getD []
  ((validated.lookup n.shortType).getD []).filter fun name => !hasValue (Value.field name given)

/-! ## Canonical types -/

/-- other names of short types -/
def aliases : List (String × String) := [
  ("functionItem", "function"),
  ("router", "switch"),
  ("sendEmail", "emailSend"),
  ("emailSendSmtp", "emailSend"),
  ("email", "emailSend"),
  ("errorWorkflow", "errorTrigger"),
  ("error", "errorTrigger"),
  ("raspberryPi", "httpRequest"),
  ("gpio", "httpRequest"),
  ("iot", "httpRequest"),
  ("exec", "executeCommand"),
  ("join", "merge"),
  ("whatsappBusiness", "whatsApp"),
  ("discordTrigger", "webhook"),
  ("discordWebhook", "webhook"),
  ("slackTrigger", "webhook"),
  ("schedule", "scheduleTrigger"),
  ("http", "httpRequest")]

/-- what stands before the last point of a tag -/
def packageOf (tag : String) : String :=
  String.ofList (tag.toList.take (tag.length - (Catalog.shortType tag).length - 1))

/-- a type tag with its package, a bare name getting the common one, and with the catalog's name for an alias -/
def canonicalType (given : String) : String :=
  let bare := Text.strip given
  if bare.isEmpty then bare
  else
    let tag := if bare.toList.contains '.' then bare else Catalog.fullTag bare
    match aliases.lookup (Catalog.shortType tag) with
    | some short => if "n8n-nodes-".toList.isPrefixOf (packageOf tag).toList then Catalog.fullTag short else tag
    | none => tag

/-! ## Values that a user has to supply -/

/-- a parameter that a user has to supply -/
structure UserValue where
  parameter : String
  kind : String
  description : String

/-- the parameters of short types that a user has to supply -/
def userValues : List (String × UserValue) := [
  ("httpRequest", ⟨"url", "endpoint", "API endpoint URL"⟩),
  ("mqtt", ⟨"broker", "endpoint", "MQTT broker URL"⟩),
  ("emailSend", ⟨"toRecipients", "identifier", "Recipient email address"⟩),
  ("twilio", ⟨"to", "identifier", "Recipient phone number"⟩),
  ("whatsApp", ⟨"recipientPhoneNumber", "identifier", "Recipient phone number"⟩),
  ("telegram", ⟨"chatId", "identifier", "Telegram chat id"⟩)]

def placeholders : List String :=
  [placeholderUrl, placeholderEmail, placeholderPhone, placeholderBroker, placeholderChat]

mutual

/-- whether a parameter still has no value of the user's own; a list has none when none of its items has -/
def isPlaceholder : Value → Bool
  | .list items => arePlaceholders items
  | .null => true
  | .text s => Text.isBlankText s || placeholders.contains s
  | _ => false

def arePlaceholders : List Value → Bool
  | [] => true
  | v :: vs => isPlaceholder v && arePlaceholders vs

end

/-- the value that a user still has to supply for a node, with the name of the node -/
def neededBy (n : Node) : Except Fault (List (Value × UserValue)) :=
  match userValues.lookup n.shortType with
  | none => .ok []
  | some u =>
    let given := n.get "parameters"
    match given with
    | .object fields =>
      .ok (if isPlaceholder (Value.field u.parameter fields) then
        [((Table.get? (.text "name") n.fields).getD "", u)] else [])
    | v =>
      if v.isFilled then .error .noFields
      else .ok [((Table.get? (.text "name") n.fields).getD "", u)]

/-- what a list of nodes is: the items of a list, nothing for what is empty -/
def nodeItems : Value → Except Fault (List Value)
  | .list items => .ok items
  | .object fields => .ok (fields.map fun (k, _) => Value.ofKey k)
  | .text s => .ok (s.toList.map fun c => Value.text c.toString)
  | v => if v.isFilled then .error .wrongKind else .ok []

/-- all values that a user still has to supply for a document -/
def neededValues (document : Value) : Except Fault (List (Value × UserValue)) :=
  match document with
  | .object fields => do
    let items ← nodeItems (Value.field "nodes" fields)
    let needed ← items.mapM fun v =>
      match Node.ofValue? v with
      | some n => neededBy n
      | none => .error .noFields
    return needed.flatten
  | _ => .error .noFields

end Parameters

end WorkflowGraph

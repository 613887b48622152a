import WorkflowGraph.Text.Case
import WorkflowGraph.Text.Search
/-
The closed catalog of node types: for each its category, the words people use for it and what it is used for. The order
counts, since a search keeps the first of several equally good entries.
-/
namespace WorkflowGraph

/-- what a node type is for; `unrecognized` stands for every type that is not in the catalog -/
inductive Category where
  | trigger
  | communication
  | iot
  | data
  | flow
  | http
  | database
  | files
  | cloud
  | utility
  | integration
  | unrecognized
  deriving DecidableEq

namespace Category

def word : Category → String
  | .trigger => "trigger"
  | .communication => "communication"
  | .iot => "iot"
  | .data => "data"
  | .flow => "flow"
  | .http => "http"
  | .database => "database"
  | .files => "files"
  | .cloud => "cloud"
  | .utility => "utility"
  | .integration => "integration"
  | .unrecognized => "unrecognized"

def all : List Category := [
  .trigger, .communication, .iot, .data, .flow, .http, .database, .files, .cloud, .utility, .integration,
  .unrecognized]

/-- the category of a word -/
def ofWord? (s : String) : Option Category := all.find? (·.word = s)

end Category

namespace Catalog

/-- the package that catalog types belong to, with the point after it -/
def package : String := "n8n-nodes-base."

/-- the full tag of a short type -/
def fullTag (short : String) : String := package ++ short

/-- one node type -/
structure Entry where
  type : String
  category : Category
  display : String
  description : String
  commonNames : List String
  useCases : List String
  outputs : Nat

/-- the entry of a short type -/
def entry (short : String) (category : Category) (display description : String) (commonNames useCases : List String)
    (outputs : Nat) : Entry :=
  ⟨fullTag short, category, display, description, commonNames, useCases, outputs⟩

/-- the catalog -/
def entries : List Entry := [
  entry "webhook" .trigger "Webhook" "Triggers workflow via HTTP webhook"
    ["webhook", "http trigger", "api trigger", "rest trigger"]
    ["receive http requests", "api endpoint", "external triggers", "form submissions"] 1,
  entry "scheduleTrigger" .trigger "Schedule Trigger" "Triggers workflow on schedule"
    ["schedule", "timer", "periodic", "daily", "hourly"]
    ["scheduled tasks", "recurring jobs", "periodic checks", "maintenance tasks"] 1,
  entry "cron" .trigger "Cron" "Legacy cron trigger"
    ["cron", "cron job"]
    ["cron expressions"] 1,
  entry "errorTrigger" .trigger "Error Trigger" "Catches errors from other workflows"
    ["error trigger", "error handler", "exception handler"]
    ["error handling", "failure notifications", "recovery workflows"] 1,
  entry "manualTrigger" .trigger "Manual Trigger" "Manual workflow trigger"
    ["manual", "test trigger", "debug trigger"]
    ["testing", "manual execution", "debugging"] 1,
  entry "emailSend" .communication "Send Email" "Send emails"
    ["email", "send email", "mail", "notification email", "alert email"]
    ["email notifications", "alerts", "reports", "confirmations"] 1,
  entry "slack" .communication "Slack" "Slack integration"
    ["slack", "slack message", "slack notification", "slack alert"]
    ["team notifications", "alerts", "status updates", "channel messages"] 1,
  entry "telegram" .communication "Telegram" "Telegram messaging"
    ["telegram", "telegram message", "telegram bot"]
    ["instant messaging", "bot notifications", "personal alerts"] 1,
  entry "twilio" .communication "Twilio" "SMS and voice calls"
    ["sms", "text message", "twilio", "phone", "call"]
    ["sms notifications", "phone calls", "two-factor auth", "urgent alerts"] 1,
  entry "discord" .communication "Discord" "Discord messaging"
    ["discord", "discord message", "discord notification"]
    ["community notifications", "gaming alerts", "server updates"] 1,
  entry "whatsApp" .communication "WhatsApp" "WhatsApp Business messaging"
    ["whatsapp", "whatsapp message"]
    ["customer support", "instant notifications", "order updates"] 1,
  entry "mqtt" .iot "MQTT" "Publish to an MQTT broker"
    ["mqtt", "broker", "iot", "sensor"]
    ["iot integration", "sensor monitoring", "device control"] 1,
  entry "function" .data "Function" "Custom JavaScript code"
    ["function", "code", "javascript", "custom logic", "process", "transform"]
    ["data transformation", "custom logic", "calculations", "data validation"] 1,
  entry "code" .data "Code" "Execute code (JS/Python)"
    ["code", "script", "execute", "python", "javascript"]
    ["complex transformations", "api calls", "data processing", "custom operations"] 1,
  entry "set" .data "Set" "Set or modify data"
    ["set", "set data", "modify", "update", "prepare data"]
    ["data preparation", "field mapping", "data structuring", "format data"] 1,
  entry "merge" .data "Merge" "Merge multiple data streams"
    ["merge", "combine", "join", "union", "collect results"]
    ["combine branches", "aggregate data", "collect results", "join parallel flows"] 1,
  entry "splitInBatches" .data "Split In Batches" "Process data in batches"
    ["split", "batch", "chunk", "paginate"]
    ["batch processing", "large datasets", "api rate limits", "memory management"] 1,
  entry "if" .flow "IF" "Conditional branching"
    ["if", "condition", "check", "validate", "decision", "branch"]
    ["conditional logic", "validation", "routing", "decision making"] 2,
  entry "switch" .flow "Switch" "Multiple condition routing"
    ["switch", "router", "route", "multiple conditions", "case"]
    ["multiple branches", "complex routing", "type-based routing", "multi-path workflows"] 4,
  entry "wait" .flow "Wait" "Pause workflow execution"
    ["wait", "delay", "pause", "sleep", "timeout"]
    ["rate limiting", "scheduled delays", "webhook waiting", "async operations"] 1,
  entry "noOp" .flow "No Operation" "Does nothing; marks an intentional end"
    ["no op", "noop", "do nothing"]
    ["placeholders"] 1,
  entry "executeWorkflow" .flow "Execute Workflow" "Run another workflow"
    ["execute workflow", "sub workflow", "subworkflow"]
    ["workflow composition", "reusable flows"] 1,
  entry "httpRequest" .http "HTTP Request" "Make HTTP requests"
    ["http", "api", "rest", "request", "fetch", "call api", "web request"]
    ["api calls", "webhooks", "rest apis", "data fetching", "external services"] 1,
  entry "respondToWebhook" .http "Respond to Webhook" "Send webhook response"
    ["respond", "response", "webhook response", "return", "reply"]
    ["api responses", "webhook replies", "http responses", "acknowledgments"] 1,
  entry "graphql" .http "GraphQL" "GraphQL queries"
    ["graphql", "gql", "mutation"]
    ["graphql apis", "complex queries", "api integration"] 1,
  entry "postgres" .database "Postgres" "PostgreSQL operations"
    ["postgres", "postgresql", "sql", "database", "db", "query"]
    ["database queries", "data storage", "sql operations", "data retrieval"] 1,
  entry "mysql" .database "MySQL" "MySQL operations"
    ["mysql", "mariadb", "sql", "database"]
    ["database queries", "data storage", "sql operations"] 1,
  entry "mongoDb" .database "MongoDB" "MongoDB operations"
    ["mongodb", "mongo", "nosql", "document db"]
    ["nosql operations", "document storage", "json data", "flexible schemas"] 1,
  entry "redis" .database "Redis" "Redis cache operations"
    ["redis", "cache", "key-value", "memory db"]
    ["caching", "session storage", "pub/sub", "rate limiting"] 1,
  entry "readBinaryFile" .files "Read Binary File" "Read files from disk"
    ["read file", "load file", "import file", "file input"]
    ["file reading", "data import", "file processing", "csv reading"] 1,
  entry "writeBinaryFile" .files "Write Binary File" "Write files to disk"
    ["write file", "save file", "export file", "file output"]
    ["file writing", "data export", "report generation", "backup creation"] 1,
  entry "spreadsheetFile" .files "Spreadsheet File" "Work with spreadsheet files"
    ["excel", "spreadsheet", "xlsx", "csv"]
    ["excel processing", "data import/export", "report generation"] 1,
  entry "googleSheets" .cloud "Google Sheets" "Google Sheets operations"
    ["google sheets", "sheets", "spreadsheet", "google"]
    ["spreadsheet operations", "data storage", "collaborative data", "reporting"] 1,
  entry "googleDrive" .cloud "Google Drive" "Google Drive operations"
    ["google drive", "drive", "cloud storage", "file storage"]
    ["file management", "cloud storage", "document sharing", "backup"] 1,
  entry "airtable" .cloud "Airtable" "Airtable bases"
    ["airtable", "base", "table record"]
    ["record storage", "lightweight database"] 1,
  entry "aws" .cloud "AWS" "AWS services"
    ["aws", "amazon", "s3", "lambda", "cloud"]
    ["cloud operations", "s3 storage", "lambda functions", "aws services"] 1,
  entry "html" .utility "HTML" "Generate HTML content"
    ["html", "template", "render", "generate html", "format"]
    ["html generation", "email templates", "report formatting", "web content"] 1,
  entry "crypto" .utility "Crypto" "Cryptographic operations"
    ["encrypt", "decrypt", "hash", "sign"]
    ["encryption", "hashing", "digital signatures", "security operations"] 1,
  entry "dateTime" .utility "Date & Time" "Date and time operations"
    ["date", "time", "datetime", "timestamp", "format date"]
    ["date formatting", "time calculations", "scheduling", "timestamps"] 1,
  entry "executeCommand" .utility "Execute Command" "Run a shell command"
    ["execute command", "shell", "bash", "command line"]
    ["system commands", "script execution"] 1,
  entry "github" .integration "GitHub" "GitHub operations"
    ["github", "git", "repository", "pull request", "issue"]
    ["repository management", "issue tracking", "ci/cd", "code operations"] 1,
  entry "gitlab" .integration "GitLab" "GitLab operations"
    ["gitlab", "git", "repository", "merge request"]
    ["repository management", "ci/cd", "issue tracking", "code operations"] 1,
  entry "jira" .integration "Jira" "Jira issue tracking"
    ["jira", "issue", "ticket", "project management"]
    ["issue tracking", "project management", "ticket creation", "workflow automation"] 1,
  entry "notion" .integration "Notion" "Notion workspace"
    ["notion", "notes", "wiki", "knowledge base"]
    ["documentation", "knowledge management", "note taking", "database operations"] 1]

/-- the entry of a type tag -/
def lookup? (tag : String) : Option Entry := entries.find? (·.type = tag)

def categoryOf (tag : String) : Category := ((lookup? tag).map (·.category)).getD .unrecognized

def ofCategory (c : Category) : List Entry := entries.filter (·.category = c)

/-- a type tag without its package -/
def shortType (tag : String) : String := String.ofList (Text.afterLast '.' tag.toList)

/-- whether nodes of a type start a workflow: the triggers of the catalog, and types unknown to it that are triggers by
their name -/
def isTriggerType (tag : String) : Bool :=
  match categoryOf tag with
  | .trigger => true
  | .unrecognized =>
    let lower := Text.lower tag
    Text.contains lower "trigger" || "webhook".toList.isSuffixOf lower.toList
  | _ => false

/-- how well an entry fits a text in small letters: ten for every common name in it, five for every use case, three for
the word of the category -/
def Entry.score (e : Entry) (lower : String) : Nat :=
  10 * e.commonNames.countP (Text.contains lower) + 5 * e.useCases.countP (Text.contains lower) +
    (if Text.contains lower e.category.word then 3 else 0)

/-- the first entry with the best score, and that score; no entry when nothing fits -/
def bestEntry (text : String) : Option Entry × Nat :=
  let lower := Text.lower text
  entries.foldl (fun best e => if best.2 < e.score lower then (some e, e.score lower) else best) (none, 0)

/-- the input of a merge node for its `k`-th incoming branch; such a node has two inputs only -/
def mergeInput (k : Int) : Int := min k 1

end Catalog

end WorkflowGraph

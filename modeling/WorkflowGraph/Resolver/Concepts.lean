import WorkflowGraph.Catalog.Entry
/-
What node types are about: the keywords, concepts and use cases by which a free text is matched to a type. The order
decides between types of equal score.
-/
namespace WorkflowGraph

/-- what one node type is about; the words of a concept or use case are joined by underscores -/
structure Concept where
  type : String
  keywords : List String
  concepts : List String
  useCases : List String

namespace Concept

/-- the types that free text can be matched to by meaning -/
def all : List Concept := [
  ⟨Catalog.fullTag "mqtt",
    ["mqtt", "broker", "iot", "sensor", "device", "telemetry", "publish", "subscribe", "topic"],
    ["real_time_monitoring", "device_communication", "sensor_data_collection"],
    ["iot_integration", "sensor_monitoring", "device_control"]⟩,
  ⟨Catalog.fullTag "emailSend",
    ["email", "mail", "send", "notify", "alert", "report", "message"],
    ["notification", "alerting", "reporting", "communication"],
    ["send_alerts", "send_reports", "notify_users"]⟩,
  ⟨Catalog.fullTag "twilio",
    ["sms", "text", "message", "phone", "twilio", "mobile", "urgent"],
    ["urgent_notification", "mobile_alert", "sms_messaging"],
    ["critical_alerts", "mobile_notifications", "two_factor_auth"]⟩,
  ⟨Catalog.fullTag "whatsApp",
    ["whatsapp", "chat", "instant", "message", "business", "customer"],
    ["instant_messaging", "customer_communication", "chat_integration"],
    ["customer_support", "instant_notifications", "order_updates"]⟩,
  ⟨Catalog.fullTag "httpRequest",
    ["http", "api", "rest", "webhook", "request", "fetch", "get", "post", "web", "gpio", "relay", "hardware",
     "control"],
    ["api_integration", "web_service", "data_fetching", "hardware_control_api"],
    ["api_calls", "webhook_integration", "external_service", "gpio_control", "relay_switching", "hardware_interface"]⟩,
  ⟨Catalog.fullTag "function",
    ["function", "code", "process", "calculate", "transform", "logic", "custom"],
    ["data_processing", "custom_logic", "calculation"],
    ["data_transformation", "complex_calculations", "business_logic"]⟩,
  ⟨Catalog.fullTag "code",
    ["code", "javascript", "python", "script", "program", "algorithm", "model"],
    ["scripting", "advanced_processing", "ml_models"],
    ["machine_learning", "complex_algorithms", "data_analysis"]⟩,
  ⟨Catalog.fullTag "executeCommand",
    ["execute", "command", "shell", "bash", "script", "gpio", "pin", "hardware", "system", "control"],
    ["system_control", "shell_execution", "hardware_control_script"],
    ["system_commands", "script_execution", "gpio_control", "hardware_manipulation", "sensor_reading"]⟩
]

end Concept

end WorkflowGraph

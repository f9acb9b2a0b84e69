/-
How alerts are delivered.

The accounts with the providers and the patience with them. Spans of time are in seconds.
-/
import BuildingAlerts.Number

set_option autoImplicit false

namespace BuildingAlerts

/-- The mail server. Without a host nothing is really sent. -/
structure MailSetup where
  host : String := ""
  port : Int := 587
  useTls : Bool := true
  senderAddress : String := "alerts@localhost"
  senderName : String := "Building Alerts"
  user : String := ""
  password : String := ""

/-- The provider of short messages. Without an account nothing is really sent. -/
structure SmsSetup where
  provider : String := "twilio"
  account : String := ""
  token : String := ""
  sender : String := ""
  baseUrl : String := "https://api.twilio.com/2010-04-01"

/-- How payloads are posted. -/
structure WebhookSetup where
  secret : String := ""
  timeout : Number := .real 10.0
  method : String := "POST"

/-- The chat service. -/
structure ChatSetup where
  defaultUrl : String := ""

/-- How alerts are delivered. -/
structure Setup where
  mail : MailSetup := {}
  sms : SmsSetup := {}
  webhook : WebhookSetup := {}
  chat : ChatSetup := {}
  /-- How long a delivery may take. -/
  dispatchTimeout : Number := .real 10.0
  /-- How often a failed delivery is tried again. -/
  maxRetries : Int := 3
  /-- The longest wait between two attempts. -/
  backoffCap : Number := .real 60.0
  /-- The time between two passes. -/
  interval : Number := .whole 300
  dashboard : Option String := none

end BuildingAlerts

/-
Settings from the environment.

Each setting has a variable whose name is the name of the setting behind `ALERTS_`, in any
case. What is not set has a value that suits work on one's own machine.
-/
import BuildingAlerts.Document.Schema
import BuildingAlerts.Setup.Alerting
import BuildingAlerts.Text.LetterCase

set_option autoImplicit false

namespace BuildingAlerts

/-- The settings of the service. -/
structure Environment where
  interval : Int
  concurrency : Int
  dispatchTimeout : Float
  maxRetries : Int
  backoffCap : Float
  dashboard : String
  mailHost : String
  mailPort : Int
  mailUseTls : Bool
  mailUser : String
  mailPassword : String
  mailSender : String
  smsAccount : String
  smsToken : String
  smsSender : String
  webhookSecret : String
  chatUrl : String
  logLevel : String
  logFormat : String

namespace Environment

open Fields Schema

/-- The settings by their names. -/
def fields : Fields Environment :=
  Environment.mk
    <$> withDefault "evaluation_interval_seconds" 300 whole
    <*> withDefault "evaluation_concurrency" 16 whole
    <*> withDefault "dispatch_timeout_seconds" 10.0 real
    <*> withDefault "max_delivery_retries" 3 whole
    <*> withDefault "retry_backoff_cap_seconds" 60.0 real
    <*> withDefault "dashboard_url" "http://localhost:3000" text
    <*> withDefault "smtp_host" "" text
    <*> withDefault "smtp_port" 587 whole
    <*> withDefault "smtp_use_tls" true flag
    <*> withDefault "smtp_username" "" text
    <*> withDefault "smtp_password" "" text
    <*> withDefault "smtp_sender" "alerts@localhost" text
    <*> withDefault "twilio_account_sid" "" text
    <*> withDefault "twilio_auth_token" "" text
    <*> withDefault "twilio_from_number" "" text
    <*> withDefault "webhook_signing_secret" "" text
    <*> withDefault "slack_default_webhook_url" "" text
    <*> withDefault "log_level" "INFO" text
    <*> withDefault "log_format" "json" text

/-- What the names of all variables start with, in lower case. -/
def variableLead : String := "alerts_"

/-- The setting of a variable. -/
def settingOf? (v : String × String) : Option (String × Json) :=
  let name := Text.lower v.1
  if variableLead.toList.isPrefixOf name.toList then
    some (String.ofList (name.toList.drop variableLead.length), .text v.2)
  else none

/-- The settings that are made: those of the variables with those given by hand laid over
them. -/
def given (environment : List (String × String)) (byHand : List (String × Json)) :
    List (String × Json) :=
  Json.overlay (Json.overlay [] (environment.filterMap settingOf?)) byHand

/-- Reads the settings that are made and fills in the rest. -/
def read (settings : List (String × Json)) : Except (List Flaw) Environment :=
  (fields.read [] settings).toExcept

/-- How alerts are delivered under these settings. -/
def setup (e : Environment) : Setup where
  mail := {
    host := e.mailHost, port := e.mailPort, useTls := e.mailUseTls,
    senderAddress := e.mailSender, user := e.mailUser, password := e.mailPassword }
  sms := { account := e.smsAccount, token := e.smsToken, sender := e.smsSender }
  webhook := { secret := e.webhookSecret, timeout := .real e.dispatchTimeout }
  chat := { defaultUrl := e.chatUrl }
  dispatchTimeout := .real e.dispatchTimeout
  maxRetries := e.maxRetries
  backoffCap := .real e.backoffCap
  interval := .whole e.interval
  dashboard := if e.dashboard.isEmpty then none else some e.dashboard

end Environment

end BuildingAlerts

/-
Setups and settings as documents.
-/
import BuildingAlerts.Json.Access
import BuildingAlerts.Setup.Environment

set_option autoImplicit false

namespace BuildingAlerts

/-- The members of the setup for mail. -/
def MailSetup.toJson (s : MailSetup) : Json :=
  .object [("smtp_host", .text s.host), ("smtp_port", .whole s.port), ("use_tls", .bool s.useTls),
    ("sender_email", .text s.senderAddress), ("sender_name", .text s.senderName),
    ("username", .text s.user), ("password", .text s.password)]

/-- The setup for mail that a document asks for. -/
def MailSetup.ofJson (v : Json) : MailSetup :=
  let standard : MailSetup := {}
  ⟨v.textAt "smtp_host", v.wholeOr "smtp_port" standard.port, v.flagOr "use_tls" standard.useTls,
    v.textOr "sender_email" standard.senderAddress, v.textOr "sender_name" standard.senderName,
    v.textAt "username", v.textAt "password"⟩

/-- The members of the setup for short messages. -/
def SmsSetup.toJson (s : SmsSetup) : Json :=
  .object [("provider", .text s.provider), ("account_sid", .text s.account),
    ("auth_token", .text s.token), ("from_number", .text s.sender),
    ("api_base_url", .text s.baseUrl)]

/-- The setup for short messages that a document asks for. -/
def SmsSetup.ofJson (v : Json) : SmsSetup :=
  let standard : SmsSetup := {}
  ⟨v.textOr "provider" standard.provider, v.textAt "account_sid", v.textAt "auth_token",
    v.textAt "from_number", v.textOr "api_base_url" standard.baseUrl⟩

/-- The members of the setup for payloads. -/
def WebhookSetup.toJson (s : WebhookSetup) : Json :=
  .object [("signing_secret", .text s.secret), ("timeout_seconds", .number s.timeout),
    ("method", .text s.method)]

/-- The setup for payloads that a document asks for. -/
def WebhookSetup.ofJson (v : Json) : WebhookSetup :=
  let standard : WebhookSetup := {}
  ⟨v.textAt "signing_secret", v.numberOr "timeout_seconds" standard.timeout,
    v.textOr "method" standard.method⟩

/-- The members of a setup. -/
def Setup.toJson (s : Setup) : Json :=
  .object [("email", s.mail.toJson), ("sms", s.sms.toJson), ("webhook", s.webhook.toJson),
    ("slack", .object [("default_webhook_url", .text s.chat.defaultUrl)]),
    ("dispatch_timeout_seconds", .number s.dispatchTimeout),
    ("max_delivery_retries", .whole s.maxRetries),
    ("retry_backoff_cap_seconds", .number s.backoffCap),
    ("evaluation_interval_seconds", .number s.interval), ("dashboard_url", .text? s.dashboard)]

/-- The setup that a document asks for; what it leaves out is as usual. -/
def Setup.ofJson (v : Json) : Setup :=
  let standard : Setup := {}
  ⟨.ofJson (v.part "email"), .ofJson (v.part "sms"), .ofJson (v.part "webhook"),
    ⟨(v.part "slack").textAt "default_webhook_url"⟩,
    v.numberOr "dispatch_timeout_seconds" standard.dispatchTimeout,
    v.wholeOr "max_delivery_retries" standard.maxRetries,
    v.numberOr "retry_backoff_cap_seconds" standard.backoffCap,
    v.numberOr "evaluation_interval_seconds" standard.interval,
    (v.part "dashboard_url").asText?⟩

/-- The members of settings. -/
def Environment.toJson (e : Environment) : Json :=
  .object [("evaluation_interval_seconds", .whole e.interval),
    ("evaluation_concurrency", .whole e.concurrency),
    ("dispatch_timeout_seconds", .real e.dispatchTimeout),
    ("max_delivery_retries", .whole e.maxRetries),
    ("retry_backoff_cap_seconds", .real e.backoffCap), ("dashboard_url", .text e.dashboard),
    ("smtp_host", .text e.mailHost), ("smtp_port", .whole e.mailPort),
    ("smtp_use_tls", .bool e.mailUseTls), ("smtp_username", .text e.mailUser),
    ("smtp_password", .text e.mailPassword), ("smtp_sender", .text e.mailSender),
    ("twilio_account_sid", .text e.smsAccount), ("twilio_auth_token", .text e.smsToken),
    ("twilio_from_number", .text e.smsSender), ("webhook_signing_secret", .text e.webhookSecret),
    ("slack_default_webhook_url", .text e.chatUrl), ("log_level", .text e.logLevel),
    ("log_format", .text e.logFormat)]

end BuildingAlerts

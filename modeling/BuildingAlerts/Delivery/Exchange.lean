/-
What goes over the wire.

A sender turns a notification into a request to a web service or into a session with a mail
server, and the answer into the result of the delivery. The far end is described by what it
answers, so that all that is sent can be looked at.
-/
import BuildingAlerts.Delivery.Address
import BuildingAlerts.Delivery.Mail
import BuildingAlerts.Digest.Sha256
import BuildingAlerts.Notification.Log
import BuildingAlerts.Notification.Rendering
import BuildingAlerts.Setup.Alerting

set_option autoImplicit false

namespace BuildingAlerts

/-- The body of a request. -/
inductive RequestBody where
  | form (fields : List (String × Json))
  | text (s : String)
  | document (v : Json)

/-- A request to a web service. -/
structure WebRequest where
  method : String
  url : String
  timeout : Number
  body : RequestBody
  headers : Option (List (String × Json))
  credentials : Option (String × String)

/-- What a web service does with a request. -/
inductive WebAnswer where
  | reply (status : Int) (payload : Json)
  | failure (text : String)

/-- The steps of a session with a mail server. -/
inductive MailStep where
  | connect (host : String) (port timeout : Int)
  | startTls
  | login (user password : String)
  | send (sender : String) (recipients : List String) (mail : Mail)
  | quit

/-- Where a mail server refuses to go on. -/
inductive MailRefusal where
  | connecting | loggingIn | sending
deriving DecidableEq

/-- What a mail server says when it refuses. -/
def MailRefusal.text : MailRefusal → String
  | .connecting => "connection refused"
  | .loggingIn => "authentication failed"
  | .sending => "mailbox unavailable"

/-- How the far ends behave. -/
structure FarEnd where
  web : WebAnswer := .reply 200 .null
  mail : Option MailRefusal := none

/-- What has been sent. -/
structure Traffic where
  requests : List WebRequest
  mail : List MailStep

/-- No traffic. -/
def Traffic.none : Traffic := ⟨[], []⟩

/-- Something to deliver. -/
structure Parcel where
  address : String
  content : Content
  alert : Alert
  options : List (String × Json)

namespace Parcel

/-- A setting of the channel, if it counts as present. -/
def option? (p : Parcel) (name : String) : Option Json :=
  (p.options.lookup name).filter (·.isPresent)

/-- A setting of the channel that has to be a text. -/
def textOption? (p : Parcel) (name : String) (otherwise : Fault) :
    Except Fault (Option String) :=
  match p.option? name with
  | some (.text s) => .ok (some s)
  | some _ => .error otherwise
  | none => .ok none

end Parcel

/-- Deliveries give out identifiers and leave traffic behind, also when they fail. -/
structure Desk where
  ids : IdSource
  traffic : Traffic

/-- A delivery at work. -/
abbrev Sending := ExceptT Fault (StateM Desk)

namespace Sending

/-- A new identifier. -/
def draw (k : IdKind) : Sending String :=
  modifyGet fun d => let (id, ids) := d.ids.draw k; (id, { d with ids := ids })

/-- Notes a request. -/
def note (r : WebRequest) : Sending Unit :=
  modify fun d => { d with traffic := { d.traffic with requests := d.traffic.requests ++ [r] } }

/-- Notes the steps of a session. -/
def noteMail (steps : List MailStep) : Sending Unit :=
  modify fun d => { d with traffic := { d.traffic with mail := d.traffic.mail ++ steps } }

/-- A delivery that succeeded now. -/
def delivered (id : Json) (now : Moment) : DeliveryResult :=
  ⟨true, id, none, some now⟩

/-- Whether a status means success. -/
def isSuccess (status : Int) : Bool :=
  200 ≤ status && status < 300

/-! ## Mail -/

/-- The mail of a parcel. -/
def mailOf (m : MailSetup) (p : Parcel) (id : String) : Except Fault Mail :=
  Mail.ofParts
    ([("Subject", .text p.content.subject),
      ("From", .text (m.senderName ++ " <" ++ m.senderAddress ++ ">")), ("To", .text p.address)]
    ++ (match p.option? "reply_to" with
      | some v => [("Reply-To", v)]
      | none => [])
    ++ [("Message-ID", .text ("<" ++ id ++ "@" ++ m.host ++ ">"))])
    (("text/plain", p.content.body) :: match p.content.html.filter (!·.isEmpty) with
      | some html => [("text/html", html)]
      | none => [])

/-- The seconds that a mail server may take. -/
def mailTimeout : Int := 30

/-- Whether a session has somebody log in. -/
def hasLogin (m : MailSetup) : Bool :=
  !m.user.isEmpty && !m.password.isEmpty

/-- The steps that open a session. -/
def opening (m : MailSetup) : List MailStep :=
  (if m.useTls then [MailStep.startTls] else [])
    ++ if hasLogin m then [.login m.user m.password] else []

/-- A refusal of a mail server as a failed delivery. -/
def refused (r : MailRefusal) : Fault :=
  .delivery ("SMTP delivery failed: " ++ r.text)

/-- What happens in a session that has been opened: its steps, and what comes of it. -/
def posting (m : MailSetup) (refusal : Option MailRefusal) (address : String)
    (mail : Except Fault Mail) : List MailStep × Except Fault Unit :=
  if refusal = some .loggingIn && hasLogin m then ([], .error (refused .loggingIn))
  else match mail with
    | .error f => ([], .error f)
    | .ok mail =>
      ([.send m.senderAddress [address] mail],
        if refusal = some .sending then .error (refused .sending) else .ok ())

/-- A session with a mail server. One that was opened is always closed. -/
def session (m : MailSetup) (refusal : Option MailRefusal) (address : String)
    (mail : Except Fault Mail) : List MailStep × Except Fault Unit :=
  let connect := MailStep.connect m.host m.port mailTimeout
  if refusal = some .connecting then ([connect], .error (refused .connecting))
  else
    let (steps, result) := posting m refusal address mail
    (connect :: opening m ++ steps ++ [.quit], result)

/-- Sends a mail. -/
def mail (m : MailSetup) (far : FarEnd) (now : Moment) (p : Parcel) : Sending DeliveryResult := do
  if !Address.isMail p.address then
    return .refused ("Invalid email address: " ++ p.address)
  let id ← draw .emailMessage
  if m.host.isEmpty then return delivered (.text id) now
  let (steps, result) := session m far.mail p.address (mailOf m p id)
  noteMail steps
  result
  return delivered (.text id) now

/-! ## Short messages -/

/-- The text that a provider gives as the reason. -/
def reason : Json → String
  | .object ms => ((ms.lookup "message").map (·.spoken)).getD ""
  | _ => ""

/-- The identifier that a provider gives. -/
def providerId : Json → Json
  | .object ms => (ms.lookup "sid").getD .null
  | _ => .null

/-- Sends a short message. -/
def sms (s : SmsSetup) (timeout : Number) (far : FarEnd) (now : Moment) (p : Parcel) :
    Sending DeliveryResult := do
  if !Address.isPhone p.address then return .refused "Invalid phone number"
  if s.account.isEmpty then return delivered (.text (← draw .smsMessage)) now
  if s.account.contains ':' then throw .accountColon
  note {
    method := "POST", url := s.baseUrl ++ "/Accounts/" ++ s.account ++ "/Messages.json",
    timeout := timeout,
    body := .form [("To", .text p.address),
      ("From", (p.option? "from_number").getD (.text s.sender)),
      ("Body", .text (Rendering.short p.content))],
    headers := none, credentials := some (s.account, s.token) }
  match far.web with
  | .failure text => throw (.delivery ("SMS delivery failed: " ++ text))
  | .reply status payload =>
    if 300 ≤ status then
      throw (.delivery ("SMS provider HTTP " ++ toString status ++ ": " ++ reason payload))
    return delivered (providerId payload) now

/-! ## Payloads -/

/-- The header that carries the signature. -/
def signatureHeader : String := "X-Alert-Signature"

/-- The items of a value that holds any: of an object its names, of a text its characters. -/
def itemsOf : Json → Except Fault (List Json)
  | .list items => .ok items
  | .object ms => .ok (ms.map fun (k, _) => .text k)
  | .text s => .ok (s.toList.map fun c => .text (String.singleton c))
  | _ => .error .unfit

/-- Whether a value may name a member. -/
def isName : Json → Bool
  | .list _ | .object _ => false
  | _ => true

/-- The member of the pair at a place. -/
def pairOf (place : Nat) (v : Json) : Except Fault (String × Json) := do
  match ← itemsOf v with
  | [name, value] => if isName name then return (name.spoken, value) else throw .unfit
  | items => throw (.pairLength place items.length)

/-- The members that a value stands for: those of an object, or one for each pair of a list. -/
def membersOf : Json → Except Fault (List (String × Json))
  | .object ms => .ok ms
  | v => do
    let items ← itemsOf v
    items.zipIdx.mapM fun (v, i) => pairOf i v

/-- The headers of a payload before it is signed. -/
def headersOf (p : Parcel) : Except Fault (List (String × Json)) := do
  let extra ← match p.option? "headers" with
    | some v => membersOf v
    | none => pure []
  return Json.overlay [("Content-Type", .text "application/json")] extra

/-- The headers with the signature of a body; without a secret there is none. -/
def signed (headers : List (String × Json)) (body secret : String) : List (String × Json) :=
  if secret.isEmpty then headers
  else Json.overlay headers [(signatureHeader, .text (Digest.sign body secret))]

/-- Posts the payload of an alert. -/
def webhook (w : WebhookSetup) (far : FarEnd) (now : Moment) (p : Parcel) :
    Sending DeliveryResult := do
  let url := (← p.textOption? "webhook_url" .unfit).getD p.address
  if !Address.isWeb url then return .refused "Invalid webhook URL"
  let body := Json.write (← Rendering.webhookBody p.alert p.content)
  let headers ← headersOf p
  let secret := (← p.textOption? "signing_secret" .noPart).getD w.secret
  let method := (← p.textOption? "method" .noPart).getD w.method
  note {
    method := Text.upper method, url := url, timeout := w.timeout, body := .text body,
    headers := some (signed headers body secret), credentials := none }
  match far.web with
  | .failure text => throw (.delivery ("Webhook delivery failed: " ++ text))
  | .reply status _ =>
    if !isSuccess status then throw (.delivery ("Webhook HTTP " ++ toString status))
    return delivered (.text (← draw .webhookMessage)) now

/-! ## Chat -/

/-- The first text that is not empty. -/
def firstText (s t : String) : String :=
  if s.isEmpty then t else s

/-- Sends a chat message. Addresses of other services are tried as well. -/
def chat (c : ChatSetup) (timeout : Number) (far : FarEnd) (now : Moment) (p : Parcel) :
    Sending DeliveryResult := do
  let url := (← p.textOption? "slack_webhook_url" .unfit).getD (firstText p.address c.defaultUrl)
  if url.isEmpty then return .refused "No Slack webhook URL configured"
  let body ← Rendering.chatBody p.alert p.content p.options
  note {
    method := "POST", url := url, timeout := timeout, body := .document body,
    headers := none, credentials := none }
  match far.web with
  | .failure text => throw (.delivery ("Slack delivery failed: " ++ text))
  | .reply status _ =>
    if !isSuccess status then throw (.delivery ("Slack HTTP " ++ toString status))
    return delivered (.text (← draw .slackMessage)) now

end Sending

/-- The channels that can be sent on without anything being registered for them. -/
def builtinChannels : List Channel := [.email, .sms, .webhook, .slack]

/-- Whether an address has the form that a channel takes. -/
def Channel.takes (c : Channel) (address : String) : Bool :=
  match c with
  | .email => Address.isMail address
  | .sms => Address.isPhone address
  | .webhook => Address.isWeb address
  | .slack => Address.isChat address
  | _ => false

/-- Sends a parcel on a channel. -/
def Setup.send (s : Setup) (c : Channel) (far : FarEnd) (now : Moment) (p : Parcel) :
    Sending DeliveryResult :=
  match c with
  | .email => Sending.mail s.mail far now p
  | .sms => Sending.sms s.sms s.dispatchTimeout far now p
  | .webhook => Sending.webhook s.webhook far now p
  | .slack => Sending.chat s.chat s.dispatchTimeout far now p
  | c => throw (.unsupportedChannel c)

end BuildingAlerts

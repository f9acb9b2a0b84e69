/-
What goes over the wire, as documents.
-/
import BuildingAlerts.Delivery.Exchange

set_option autoImplicit false

namespace BuildingAlerts

/-- The member that holds the body of a request. -/
def RequestBody.member : RequestBody → String × Json
  | .form fields => ("data", .object fields)
  | .text s => ("data", .text s)
  | .document d => ("json", d)

/-- The members of a request. -/
def WebRequest.toJson (r : WebRequest) : Json :=
  .object ([("method", .text r.method), ("url", .text r.url), ("timeout", .number r.timeout),
      r.body.member]
    ++ (r.headers.map fun hs => ("headers", Json.object hs)).toList
    ++ (r.credentials.map fun (user, password) =>
      ("auth", Json.texts [user, password])).toList)

/-- A mail: its kind, its headers and its parts. -/
def Mail.toJson (m : Mail) : Json :=
  .object [("content_type", .text "multipart/alternative"),
    ("headers", .list (m.headers.map fun (k, v) => .texts [k, v])),
    ("parts", .list (m.parts.map fun (k, s) => .texts [k, s]))]

/-- A step of a session as a list that starts with its name. -/
def MailStep.toJson : MailStep → Json
  | .connect host port timeout => .list [.text "connect", .text host, .whole port, .whole timeout]
  | .startTls => .texts ["starttls"]
  | .login user password => .texts ["login", user, password]
  | .send sender recipients mail =>
    .list [.text "sendmail", .text sender, .texts recipients, mail.toJson]
  | .quit => .texts ["quit"]

end BuildingAlerts

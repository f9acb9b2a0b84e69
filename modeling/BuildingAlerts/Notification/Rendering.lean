/-
What notifications say.

The same alert is written as plain text, as markup, as a short message and as the bodies
that other services take.
-/
import BuildingAlerts.Alert.Basic
import BuildingAlerts.Json.Printer
import BuildingAlerts.Notification.Policy

set_option autoImplicit false

namespace BuildingAlerts

namespace Rendering

/-- A character as it stands in markup. -/
def escapeChar (c : Char) : List Char :=
  match c with
  | '&' => "&amp;".toList
  | '<' => "&lt;".toList
  | '>' => "&gt;".toList
  | '"' => "&quot;".toList
  | '\'' => "&#x27;".toList
  | c => [c]

/-- A text as it stands in markup. -/
def escape (s : String) : String :=
  String.ofList (s.toList.flatMap escapeChar)

/-- A text with something put in front of the first place where a part stands. -/
def insertBefore (part addition : List Char) : List Char → List Char
  | [] => if part.isEmpty then addition else []
  | c :: cs =>
    if part.isPrefixOf (c :: cs) then addition ++ c :: cs
    else c :: insertBefore part addition cs

/-- Lines with breaks between them. -/
def lines (ls : List String) : String :=
  "\n".intercalate ls

/-- A text without the slashes at its end. -/
def dropSlashes (s : String) : String :=
  String.ofList (s.toList.reverse.dropWhile (· == '/')).reverse

/-- Where an alert is found on the dashboard, empty without one. -/
def link (a : Alert) (dashboard : Option String) : String :=
  match dashboard.filter (!·.isEmpty) with
  | some url => dropSlashes url ++ "/dashboard/alerts/" ++ a.id
  | none => ""

/-- The severity of an alert in capitals. -/
def severityText (a : Alert) : String :=
  match a.severity with
  | some p => Text.upper (code p)
  | none => "UNKNOWN"

/-- When an alert triggered, on its own clock. -/
def triggeredText (a : Alert) : String :=
  let stamp := a.triggeredAt.shortDateText ++ " " ++ a.triggeredAt.secondsText ++ " "
    ++ a.triggeredAt.zoneLabel
  String.ofList (Text.trim stamp.toList)

/-- The plain text of an alert. -/
def bodyLines (a : Alert) (url : String) : List String :=
  ["Alert Details:", "- Title: " ++ a.title, "- Severity: " ++ severityText a,
    "- Triggered: " ++ triggeredText a, "- Description: " ++ a.description, ""]
  ++ (if url.isEmpty then [] else ["View in dashboard: " ++ url, ""])
  ++ ["Alert ID: " ++ a.id]

/-- The heading of the markup. -/
def heading : String := "<h2>"

/-- The markup of an alert. -/
def htmlLines (a : Alert) (url : String) : List String :=
  ["<div style=\"font-family: Arial, sans-serif; max-width: 600px;\">",
    heading ++ severityText a ++ " Alert</h2>",
    "<h3>" ++ escape a.title ++ "</h3>",
    "<p><strong>Severity:</strong> " ++ severityText a ++ "</p>",
    "<p><strong>Triggered:</strong> " ++ escape (triggeredText a) ++ "</p>",
    "<p><strong>Description:</strong> " ++ escape a.description ++ "</p>"]
  ++ (if url.isEmpty then [] else
    ["<p><a href=\"" ++ escape url ++ "\">View in Dashboard</a></p>"])
  ++ ["<p style=\"font-size: 12px;\">Alert ID: " ++ a.id ++ "</p>", "</div>"]

/-- The notification of an alert. -/
def alert (a : Alert) (dashboard : Option String) : Content :=
  let url := link a dashboard
  { subject := severityText a ++ " Alert: " ++ a.title
    body := lines (bodyLines a url)
    html := some (lines (htmlLines a url))
    substitutions := [("alert_title", a.title), ("alert_description", a.description),
      ("severity", severityText a), ("triggered_at", triggeredText a), ("alert_id", a.id),
      ("dashboard_url", url)] }

/-- The mark of a level in the markup. -/
def levelMark (level : Int) : String :=
  "<p><strong>ESCALATED ALERT - LEVEL " ++ toString level ++ "</strong></p>"

/-- The notification of an alert that was escalated to a level. -/
def escalation (a : Alert) (s : Stage) (level : Int) (dashboard : Option String) : Content :=
  let base := alert a dashboard
  let acknowledgment := if s.requireAcknowledgment then
      ["Acknowledgment required within " ++ toString s.acknowledgmentTimeout ++ " minutes."]
    else []
  let message := if s.message.isEmpty then [] else ["", s.message]
  { subject := "ESCALATED (Level " ++ toString level ++ "): " ++ base.subject
    body := lines (["*** ESCALATED ALERT - LEVEL " ++ toString level ++ " ***", "", base.body, "",
      "This alert has been escalated due to lack of acknowledgment."] ++ acknowledgment ++ message)
    html := base.html.map fun html =>
      String.ofList (insertBefore heading.toList (levelMark level).toList html.toList)
    substitutions := (Table.insert ⟨base.substitutions⟩ "escalation_level" (toString level)).entries }

/-- The most characters of a short message. -/
def shortLength : Nat := 160

/-- Subject and body as a short message. -/
def short (c : Content) : String :=
  let cs := (c.subject ++ "\n" ++ c.body).toList
  if shortLength < cs.length then String.ofList (cs.take (shortLength - 3)) ++ "..."
  else String.ofList cs

/-- Where the content leads, if it leads anywhere. -/
def linkOf? (c : Content) : Option String :=
  (c.substitutions.lookup "dashboard_url").filter (!·.isEmpty)

/-- The body that is posted to other services. An alert without a severity has none. -/
def webhookBody (a : Alert) (c : Content) : Except Fault Json := do
  let severity ← orFault .noPart a.severity
  let url := match linkOf? c with
    | some url => [("dashboard_url", Json.text url)]
    | none => []
  return .object ([("alert_id", .text a.id), ("alert_title", .text a.title),
    ("severity", .text (code severity)), ("triggered_at", .text a.triggeredAt.iso),
    ("description", .text a.description),
    ("metric_values", .list (a.values.map (·.toJson))),
    ("custom_fields", .object [("configuration_id", .text a.configurationId),
      ("rule_id", .text a.ruleId), ("escalation_level", .whole a.escalationLevel)])] ++ url)

/-- The sign of a severity in a chat. -/
def chatSign : Priority → String
  | .info | .low => ":information_source:"
  | .medium => ":warning:"
  | .high => ":rotating_light:"
  | .critical => ":fire:"

/-- A text part of a chat message. -/
def chatText (kind text : String) : Json :=
  .object [("type", .text kind), ("text", .text text)]

/-- A section of a chat message. -/
def chatSection (text : String) : Json :=
  .object [("type", .text "section"), ("text", chatText "mrkdwn" text)]

/-- The line that ends a chat message: the alert and when it triggered. -/
def chatStamp (a : Alert) : String :=
  "_Alert " ++ a.id ++ " | " ++ a.triggeredAt.shortDateText ++ " " ++ a.triggeredAt.clockText
    ++ " UTC_"

/-- The body of a chat message. An alert without a severity has none. -/
def chatBody (a : Alert) (c : Content) (options : List (String × Json)) : Except Fault Json := do
  let severity ← orFault .noPart a.severity
  let sign := chatSign severity
  let url := match linkOf? c with
    | some url => [chatSection ("<" ++ url ++ "|View in dashboard>")]
    | none => []
  let blocks := [Json.object [("type", .text "header"), ("text", chatText "plain_text" c.subject)],
      chatSection (sign ++ " " ++ a.description)] ++ url
    ++ [.object [("type", .text "context"),
      ("elements", .list [chatText "mrkdwn" (chatStamp a)])]]
  let room := match (options.lookup "slack_channel").filter (·.isPresent) with
    | some v => [("channel", v)]
    | none => []
  return .object ([("text", .text (sign ++ " " ++ c.subject)), ("blocks", .list blocks)] ++ room)

end Rendering

end BuildingAlerts

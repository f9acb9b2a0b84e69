/-
The forms of addresses.

Each channel has its own form of address. One break of line at the very end is passed over.
-/
import BuildingAlerts.Text.Blank

set_option autoImplicit false

namespace BuildingAlerts.Address

/-- A letter of the English alphabet or one of the ten Arabic digits. -/
def isPlain (c : Char) : Bool :=
  c.isAlphanum

/-- A text without a break of line at its end. -/
def dropBreak (s : String) : List Char :=
  let cs := s.toList
  if cs.getLast? == some '\n' then cs.dropLast else cs

/-- The rest behind a text that stands in front. -/
def dropLead? (lead : String) (cs : List Char) : Option (List Char) :=
  if lead.toList.isPrefixOf cs then some (cs.drop lead.length) else none

/-- Whether a text is not empty and holds only some characters. -/
def isSome (test : Char → Bool) (cs : List Char) : Bool :=
  !cs.isEmpty && cs.all test

/-- The parts of a text between separators. -/
def pieces (mark : Char) : List Char → List (List Char)
  | [] => [[]]
  | c :: cs =>
    if c == mark then [] :: pieces mark cs
    else match pieces mark cs with
      | [] => [[c]]
      | p :: ps => (c :: p) :: ps

/-- The characters in the name of a mailbox. -/
def isMailboxChar (c : Char) : Bool :=
  isPlain c || c == '.' || c == '_' || c == '%' || c == '+' || c == '-'

/-- The characters in the name of a mail host. -/
def isHostChar (c : Char) : Bool :=
  isPlain c || c == '.' || c == '-'

/-- A mail host: a name, a point and at least two letters. -/
def isMailHost (cs : List Char) : Bool :=
  let ending := (cs.reverse.takeWhile (· != '.')).reverse
  let name := cs.take (cs.length - ending.length - 1)
  cs.contains '.' && isSome isHostChar name && 2 ≤ ending.length && ending.all Char.isAlpha

/-- A mail address: a mailbox at a host. -/
def isMail (s : String) : Bool :=
  match pieces '@' (dropBreak s) with
  | [mailbox, host] => isSome isMailboxChar mailbox && isMailHost host
  | _ => false

/-- A telephone number: an optional plus sign, a digit that is not zero and six to fourteen
digits of any script. -/
def isPhone (s : String) : Bool :=
  let cs := dropBreak s
  let cs := (dropLead? "+" cs).getD cs
  match cs with
  | first :: rest =>
    '1' ≤ first && first ≤ '9' && 6 ≤ rest.length && rest.length ≤ 14 && rest.all Text.isDigit
  | [] => false

/-- A part of the name of a host: letters and digits with hyphens between them. -/
def isLabel (cs : List Char) : Bool :=
  isSome (fun c => isPlain c || c == '-') cs && cs.head? != some '-' && cs.getLast? != some '-'

/-- The rest behind a port, if there is one: a colon and digits of any script. -/
def dropPort (cs : List Char) : List Char :=
  match cs with
  | ':' :: rest =>
    let after := rest.dropWhile Text.isDigit
    if after.length < rest.length then after else cs
  | cs => cs

/-- A path: nothing, or a slash and the rest of the line. -/
def isPath : List Char → Bool
  | [] => true
  | c :: cs => c == '/' && !cs.contains '\n'

/-- An address on the web. -/
def isWeb (s : String) : Bool :=
  let cs := dropBreak s
  match (dropLead? "https://" cs).or (dropLead? "http://" cs) with
  | some rest =>
    let host := rest.takeWhile fun c => c != ':' && c != '/'
    (pieces '.' host).all isLabel && isPath (dropPort (rest.drop host.length))
  | none => false

/-- A capital letter or a digit. -/
def isCapital (c : Char) : Bool :=
  c.isUpper || c.isDigit

/-- A letter that marks a part, and capitals and digits behind it. -/
def isChatPart (mark : Char) (cs : List Char) : Bool :=
  match cs with
  | c :: rest => c == mark && isSome isCapital rest
  | [] => false

/-- An address of the chat service. -/
def isChat (s : String) : Bool :=
  match dropLead? "https://hooks.slack.com/services/" (dropBreak s) with
  | some rest =>
    match pieces '/' rest with
    | [team, bot, token] => isChatPart 'T' team && isChatPart 'B' bot && isSome isPlain token
    | _ => false
  | none => false

end BuildingAlerts.Address

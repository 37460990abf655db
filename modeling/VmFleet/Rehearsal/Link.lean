/-
This file links clients to a daemon under rehearsal. Questions are answered at
once, except that the answer to a request to run a machine takes as long as the
boot. What the daemon refuses arrives as a text in quotes, with the marks of the
transport around it.
-/

import VmFleet.Client.Question
import VmFleet.Rehearsal.Fleet
import VmFleet.Text.Hex

namespace VmFleet.Rehearsal

open VmFleet.Client VmFleet.Text

/-- A character between quotes. -/
def quotedCharacter (character : Char) : String :=
  match character with
  | '"' => "\\\""
  | '\\' => "\\\\"
  | '\n' => "\\n"
  | '\r' => "\\r"
  | '\t' => "\\t"
  | character =>
    if character.toNat = 0 then "\\0"
    else if character.toNat < 0x20 || character.toNat = 0x7F then
      "\\u\x7b" ++ String.ofList (Nat.toDigits 16 character.toNat) ++ "\x7d"
    else String.singleton character

/-- How a refusal reads when it has travelled to the client. -/
def travelled (refusal : String) : String :=
  "roam error: User(\"" ++ String.join (refusal.toList.map quotedCharacter) ++ "\")"

/-- An answer that comes at once. -/
def atOnce {α : Type} (answer : Except FleetError α) : Option (Reply α) :=
  some ⟨0, answer.mapError fun error => travelled error.flatten⟩

/-- The reply of a daemon under rehearsal. -/
def Fleet.reply {α : Type} (fleet : Fleet) (info : DaemonInfo) :
    Question α → Option (Reply α) × Fleet
  | .echo => (atOnce (.ok info), fleet)
  | .listImages =>
    let (daemon, outcome) := fleet.daemon.listImages
    (atOnce outcome, { fleet with daemon })
  | .removeImage channel version =>
    let (daemon, outcome) := fleet.daemon.removeImage channel version
    (atOnce outcome, { fleet with daemon })
  | .listVms => (atOnce (.ok (fleet.byDiscovery (·.uuid) fleet.daemon.list)), fleet)
  | .run draft =>
    let (begun, serial) := fleet.start draft
    let ended := begun.await serial
    ((ended.answer? serial).map fun (outcome, time) =>
      ⟨time - fleet.now, outcome.mapError fun error => travelled error.flatten⟩, ended)
  | .stop targets =>
    let (fleet, asked) := fleet.stop targets
    (atOnce (.ok asked), fleet)
  | .identify uuid =>
    let (fleet, outcome) := fleet.lookUpIdentity uuid
    (atOnce outcome, fleet)
  | .stopServer => (atOnce (.ok info.farewell), fleet.close)

/-- The link to a daemon under rehearsal. -/
def Fleet.link (info : DaemonInfo) : Link (StateM Fleet) :=
  ⟨fun question fleet => fleet.reply info question⟩

end VmFleet.Rehearsal

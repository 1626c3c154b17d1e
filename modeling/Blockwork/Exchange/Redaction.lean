import Blockwork.Exchange.Basic
import Blockwork.Json.Node
import Blockwork.Timestamp

/-!
# Redaction

What a tool is told should depend on what it asked and on nothing else, so two things are hidden from
it: identities that it did not bring along itself, and times of edits that it did not name.
`Json.identities` and `Json.times` collect what occurs anywhere in a request, and `Json.redact` hides
the rest in an answer.

An identity is found inside any text, in groups or in plain digits.  A time is a text of its own, or
one within a text that is itself a JSON document.
-/

namespace Blockwork

namespace Uuid

/-- The number that `n` hexadecimal digits add to the digits before them, and what follows. -/
def takeDigits? : Nat → Nat → List Char → Option (Nat × List Char)
  | 0, v, cs => some (v, cs)
  | _ + 1, _, [] => none
  | n + 1, v, c :: cs =>
    match Json.hexValue? c with
    | some d => takeDigits? n (16 * v + d) cs
    | none => none

/-- The number that groups of digits with hyphens between them add to the digits before them. -/
def takeGroups? : List Nat → Nat → List Char → Option Nat
  | [], v, _ => some v
  | [n], v, cs => (takeDigits? n v cs).map Prod.fst
  | n :: rest, v, cs =>
    match takeDigits? n v cs with
    | some (w, '-' :: more) => takeGroups? rest w more
    | _ => none

/-- The identity in groups that characters begin with. -/
def leading? (cs : List Char) : Option Uuid :=
  (takeGroups? groups 0 cs).map fun n => ⟨BitVec.ofNat 128 n⟩

/-- Adds the identities in groups that occur among characters. -/
def collectGrouped (found : List Uuid) : List Char → List Uuid
  | [] => found
  | c :: rest =>
    let found := match leading? (c :: rest) with
      | some u => u :: found
      | none => found
    collectGrouped found rest

/-- Adds the identities in plain digits that occur among characters.  `run` digits stand directly
before them, and `last` is the number of the last thirty-two. -/
def collectPlain (found : List Uuid) (run : Nat) (last : BitVec 128) : List Char → List Uuid
  | [] => found
  | c :: rest =>
    match Json.hexValue? c with
    | none => collectPlain found 0 0 rest
    | some d =>
      let last := last <<< 4 ||| BitVec.ofNat 128 d
      let found := if 31 ≤ run then ⟨last⟩ :: found else found
      collectPlain found (run + 1) last rest

/-- Adds the identities that occur in a text. -/
def collect (found : List Uuid) (s : String) : List Uuid :=
  let cs := s.toList
  collectPlain (collectGrouped found cs) 0 0 cs

/-- What stands in place of a hidden identity. -/
def mask : List Char := "<new>".toList

/-- Hides the identities in groups that are not to be kept, after passing over some characters. -/
def redactChars (keep : Uuid → Bool) : Nat → List Char → List Char
  | _, [] => []
  | skip + 1, _ :: rest => redactChars keep skip rest
  | 0, c :: rest =>
    match leading? (c :: rest) with
    | some u => (if keep u then (c :: rest).take 36 else mask) ++ redactChars keep 35 rest
    | none => c :: redactChars keep 0 rest

/-- Hides the identities in a text that are not to be kept. -/
def redact (keep : Uuid → Bool) (s : String) : String :=
  String.ofList (redactChars keep 0 s.toList)

end Uuid

namespace Json

mutual

/-- The texts in a value, names of members included, before some others. -/
def texts (after : List String) : Json → List String
  | .string s => s :: after
  | .array items => textsOfItems after items
  | .object members => textsOfMembers after members
  | _ => after

/-- The texts in several values. -/
def textsOfItems (after : List String) : List Json → List String
  | [] => after
  | j :: rest => texts (textsOfItems after rest) j

/-- The texts in members. -/
def textsOfMembers (after : List String) : List (String × Json) → List String
  | [] => after
  | (name, j) :: rest => name :: texts (textsOfMembers after rest) j

end

/-- The identities that occur in a value. -/
def identities (j : Json) : List Uuid := (j.texts []).foldl Uuid.collect []

/-- The times in a value, in their written form. -/
def times (j : Json) : List String :=
  let outer := j.texts []
  let inner := outer.flatMap fun s =>
    match ofText? s with
    | some document => document.texts []
    | none => []
  (outer ++ inner).filterMap fun s => (Timestamp.parse? s).map Timestamp.text

/-- The name of the member that holds the time of an edit. -/
def editTime : String := "lastModified"

/-- What stands in place of a hidden time. -/
def timeMask : String := "<now>"

mutual

/-- Hides the identities that are not to be kept, and times of edits other than those given. -/
def redact (keep : Uuid → Bool) (known : List String) : Json → Json
  | .string s => .string (Uuid.redact keep s)
  | .array items => .array (redactItems keep known items)
  | .object members => .object (redactMembers keep known members)
  | j => j

/-- Hides in several values. -/
def redactItems (keep : Uuid → Bool) (known : List String) : List Json → List Json
  | [] => []
  | j :: rest => redact keep known j :: redactItems keep known rest

/-- Hides in the values of members. -/
def redactMembers (keep : Uuid → Bool) (known : List String) :
    List (String × Json) → List (String × Json)
  | [] => []
  | (name, j) :: rest =>
    let hidden := name == editTime && j.text?.any fun s => !known.contains s
    (name, if hidden then .string timeMask else redact keep known j) ::
      redactMembers keep known rest

end

/-- What of an answer may be told to whoever made a request. -/
def redactFor (request answer : Json) : Json :=
  let ids := request.identities
  let known := if (answer.texts []).contains editTime then request.times else []
  answer.redact (fun u => ids.contains u || u == .nil) known

end Json

end Blockwork

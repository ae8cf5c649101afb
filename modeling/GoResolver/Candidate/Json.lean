import GoResolver.Candidate
import GoResolver.Json.Basic

/-!
# Candidates as JSON

A candidate is written as an object of its name, its kind and, unless it is empty, its signature.
It is read from an object or from an array of the fields in order; a missing signature is empty.  A
kind is the word for it, or an object whose only member has that word as key and `null` as value.
-/

namespace GoResolver

/-- Reads a kind. -/
def CandidateKind.ofJson? : JsonValue → Option CandidateKind
  | .string (some word) => CandidateKind.ofWord? word
  | .object [(some word, .null)] => CandidateKind.ofWord? word
  | _ => none

namespace Candidate

/-- Writes a candidate. -/
def toJson (c : Candidate) : JsonValue :=
  .ofMembers ([("name", .ofString c.name), ("kind", .ofString c.kind.word)] ++
    if c.signature = "" then [] else [("signature", .ofString c.signature)])

/-- Reads a candidate. -/
def ofJson? (v : JsonValue) : Option Candidate :=
  match v.fields? ["name", "kind", "signature"] with
  | some [some name, some kind, signature] => do
    let name ← name.text?
    let kind ← CandidateKind.ofJson? kind
    let signature ← match signature with
      | none => some ""
      | some s => s.text?
    some { name, kind, signature }
  | _ => none

end Candidate

end GoResolver

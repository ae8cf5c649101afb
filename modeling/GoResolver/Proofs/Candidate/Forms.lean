import GoResolver.Candidate.Json
import GoResolver.Proofs.Json.RoundTrip

/-!
# The forms of a candidate

A candidate is written in one form and read from many: as an object with its members in any order
and others between them, or as an array of its fields; with its kind as a word or as an object
around the word; and with its signature left out when that is empty.  `Candidate.IsForm` says what
these forms are, and they are all that is read (`ofJson?_eq_some_iff`).

1. Every field of a record occurs at most once in an object, so which values there are under its
   name (`valuesOf`) does not depend on the order of the members.
2. A kind has two forms.
3. A candidate is read from the values of its fields, wherever these stand.
4. What is written is one of the forms.  So it is read back, by any library that reads back what it
   writes, and no two candidates have a text in common, although the signature may be missing in it.
-/

namespace GoResolver

namespace JsonValue

/-! ## 1. The fields of a record -/

/-- The values that an object has under a key. -/
def valuesOf (key : String) (members : List (Option String × JsonValue)) : List JsonValue :=
  (members.filter (·.1 == some key)).map Prod.snd

/-- The value that is looked up is the first one. -/
theorem lookup_eq_head?_valuesOf (key : String) (members : List (Option String × JsonValue)) :
    members.lookup (some key) = (valuesOf key members).head? := by
  rw [valuesOf]
  induction members with
  | nil => rfl
  | cons m members ih =>
    obtain ⟨other, v⟩ := m
    rw [List.lookup_cons]
    by_cases hkey : other = some key
    · subst hkey
      rw [beq_self_eq_true, List.filter_cons_of_pos (by exact beq_self_eq_true (some key))]
      rfl
    · have hne : (other == some key) = false := beq_eq_false_iff_ne.mpr hkey
      have hne' : (some key == other) = false := beq_eq_false_iff_ne.mpr (Ne.symm hkey)
      rw [hne', List.filter_cons_of_neg (by rw [hne]; exact Bool.false_ne_true)]
      exact ih

/-- A key that occurs at most once has the value that is looked up, if any. -/
theorem valuesOf_eq_toList {key : String} {members : List (Option String × JsonValue)}
    (h : (valuesOf key members).length ≤ 1) :
    valuesOf key members = (members.lookup (some key)).toList := by
  rw [lookup_eq_head?_valuesOf]
  cases hvalues : valuesOf key members with
  | nil => rfl
  | cons v more =>
    rw [hvalues, List.length_cons] at h
    rw [List.length_eq_zero_iff.mp (by omega : more.length = 0)]
    rfl

/-- **The fields of an object**: every key is a text, and no field occurs twice. -/
theorem fields?_object_eq_some_iff {names : List String}
    {members : List (Option String × JsonValue)} {values : List (Option JsonValue)} :
    fields? names (.object members) = some values ↔
      (∀ m ∈ members, m.1.isSome = true) ∧
        names.map (fun n => valuesOf n members) = values.map Option.toList := by
  have hkeys : members.any (·.1.isNone) = false ↔ ∀ m ∈ members, m.1.isSome = true := by
    simp [Option.isSome_iff_ne_none]
  have honce : (names.all fun n => (members.filter (·.1 == some n)).length ≤ 1) = true ↔
      ∀ n ∈ names, (valuesOf n members).length ≤ 1 := by
    simp [valuesOf]
  have hlookup : names.map (fun n => members.lookup (some n)) =
      (names.map fun n => valuesOf n members).map List.head? := by
    rw [List.map_map]
    exact List.map_congr_left fun n _ => lookup_eq_head?_valuesOf n members
  rw [fields?]
  constructor
  · intro h
    split at h
    · cases h
    · next hany =>
      split at h
      · next hall =>
        have hone := honce.mp hall
        refine ⟨hkeys.mp (Bool.not_eq_true _ ▸ hany), ?_⟩
        rw [← Option.some_inj.mp h, List.map_map]
        exact List.map_congr_left fun n hn => valuesOf_eq_toList (hone n hn)
      · cases h
  · rintro ⟨hmembers, hvalues⟩
    have hone : ∀ n ∈ names, (valuesOf n members).length ≤ 1 := by
      intro n hn
      have hmem := List.mem_map_of_mem (f := fun n => valuesOf n members) hn
      rw [hvalues] at hmem
      obtain ⟨value, -, hvalue⟩ := List.mem_map.mp hmem
      rw [← hvalue]
      cases value <;> simp
    have hhead : List.head? ∘ Option.toList = (id : Option JsonValue → Option JsonValue) := by
      funext value
      cases value <;> rfl
    rw [hkeys.mpr hmembers, if_neg Bool.false_ne_true, if_pos (honce.mpr hone), hlookup, hvalues,
      List.map_map, hhead, List.map_id]

theorem text?_eq_some_iff {v : JsonValue} {s : String} : v.text? = some s ↔ v = .ofString s := by
  constructor
  · intro h
    cases v with
    | string text => rw [ofString, ← h, text?]
    | _ => cases h
  · rintro rfl
    rfl

end JsonValue

/-! ## 2. Kinds -/

/-- The forms of a kind: its word, and an object with the word as its only key. -/
inductive CandidateKind.IsForm (k : CandidateKind) : JsonValue → Prop where
  | word : IsForm k (.ofString k.word)
  | member : IsForm k (.object [(some k.word, .null)])

namespace CandidateKind

theorem ofWord?_eq_some_iff {word : String} {k : CandidateKind} :
    ofWord? word = some k ↔ word = k.word := by
  constructor
  · intro h
    rw [ofWord?] at h
    have hword := List.find?_some h
    exact (beq_iff_eq.mp hword).symm
  · rintro rfl
    exact ofWord?_word k

/-- **A kind is read from its forms and from nothing else.** -/
theorem ofJson?_eq_some_iff {v : JsonValue} {k : CandidateKind} :
    ofJson? v = some k ↔ k.IsForm v := by
  constructor
  · intro h
    rw [ofJson?.eq_def] at h
    split at h
    · rw [ofWord?_eq_some_iff.mp h]
      exact .word
    · rw [ofWord?_eq_some_iff.mp h]
      exact .member
    · cases h
  · rintro (_ | _)
    · exact ofWord?_word k
    · exact ofWord?_word k

end CandidateKind

/-! ## 3. Candidates -/

/-- What stands for a signature: its text, or nothing when it is empty. -/
inductive IsSignature (s : String) : Option JsonValue → Prop where
  | text : IsSignature s (some (.ofString s))
  | missing (h : s = "") : IsSignature s none

namespace Candidate

variable {c : Candidate} {v : JsonValue}

/-- The forms of a candidate: an array of its fields, whose signature may be missing, and an object
with each field once. -/
inductive IsForm (c : Candidate) : JsonValue → Prop where
  | array {kind : JsonValue} {signature : Option JsonValue} (hkind : c.kind.IsForm kind)
      (hsignature : IsSignature c.signature signature) :
      IsForm c (.array (.ofString c.name :: kind :: signature.toList))
  | object {members : List (Option String × JsonValue)} {kind : JsonValue}
      {signature : Option JsonValue} (keys : ∀ m ∈ members, m.1.isSome = true)
      (hname : JsonValue.valuesOf "name" members = [.ofString c.name])
      (hkinds : JsonValue.valuesOf "kind" members = [kind]) (hkind : c.kind.IsForm kind)
      (hsignatures : JsonValue.valuesOf "signature" members = signature.toList)
      (hsignature : IsSignature c.signature signature) :
      IsForm c (.object members)

/-- A candidate is read from its fields. -/
theorem ofJson?_eq_some_iff_fields :
    ofJson? v = some c ↔ ∃ kind signature,
      v.fields? ["name", "kind", "signature"] =
          some [some (.ofString c.name), some kind, signature] ∧
        c.kind.IsForm kind ∧ IsSignature c.signature signature := by
  rw [ofJson?]
  constructor
  · intro h
    split at h
    · next name kind signature hfields =>
      obtain ⟨n, hname, h⟩ := Option.bind_eq_some_iff.mp h
      obtain ⟨k, hkind, h⟩ := Option.bind_eq_some_iff.mp h
      rw [JsonValue.text?_eq_some_iff.mp hname] at hfields
      have hform := CandidateKind.ofJson?_eq_some_iff.mp hkind
      cases signature with
      | none =>
        cases h
        exact ⟨kind, none, hfields, hform, .missing rfl⟩
      | some value =>
        obtain ⟨s, hsignature, h⟩ := Option.bind_eq_some_iff.mp h
        cases h
        rw [JsonValue.text?_eq_some_iff.mp hsignature] at hfields
        exact ⟨kind, _, hfields, hform, .text⟩
    · cases h
  · rintro ⟨kind, signature, hfields, hform, hsignature⟩
    rw [hfields]
    simp only [JsonValue.ofString, JsonValue.text?, CandidateKind.ofJson?_eq_some_iff.mpr hform,
      Option.bind_eq_bind, Option.bind_some]
    cases hsignature with
    | text => rfl
    | missing hempty => exact congrArg some (by rw [← hempty])

/-- **A candidate is read from its forms and from nothing else.** -/
theorem ofJson?_eq_some_iff : ofJson? v = some c ↔ c.IsForm v := by
  rw [ofJson?_eq_some_iff_fields]
  constructor
  · rintro ⟨kind, signature, hfields, hkind, hsignature⟩
    cases v with
    | array items =>
      have hitems : items = .ofString c.name :: kind :: signature.toList := by
        match items, hfields with
        | [_, _], rfl => rfl
        | [_, _, _], rfl => rfl
      rw [hitems]
      exact .array hkind hsignature
    | object members =>
      obtain ⟨keys, hvalues⟩ := JsonValue.fields?_object_eq_some_iff.mp hfields
      simp only [List.map_cons, List.map_nil, List.cons.injEq, and_true] at hvalues
      obtain ⟨hname, hkinds, hsignatures⟩ := hvalues
      exact .object keys hname hkinds hkind hsignatures hsignature
    | _ => cases hfields
  · rintro (⟨hkind, hsignature⟩ | ⟨keys, hname, hkinds, hkind, hsignatures, hsignature⟩)
    · exact ⟨_, _, by cases hsignature <;> rfl, hkind, hsignature⟩
    · refine ⟨_, _, JsonValue.fields?_object_eq_some_iff.mpr ⟨keys, ?_⟩, hkind, hsignature⟩
      simp only [List.map_cons, List.map_nil, hname, hkinds, hsignatures, Option.toList_some]

section

variable {members members' : List (Option String × JsonValue)}

theorem IsForm.of_perm (hc : c.IsForm (.object members)) (h : members.Perm members') :
    c.IsForm (.object members') := by
  have hvalues : ∀ key, (JsonValue.valuesOf key members).Perm (JsonValue.valuesOf key members') :=
    fun key => (h.filter _).map _
  obtain _ | ⟨keys, hname, hkinds, hkind, hsignatures, hsignature⟩ := hc
  refine .object (fun m hm => keys m (h.mem_iff.mpr hm)) ?_ ?_ hkind ?_ hsignature
  · exact (List.singleton_perm.mp (hname ▸ hvalues "name")).symm
  · exact (List.singleton_perm.mp (hkinds ▸ hvalues "kind")).symm
  · have hperm := hvalues "signature"
    rw [hsignatures] at hperm
    cases hsignature with
    | text => exact (List.singleton_perm.mp hperm).symm
    | missing hempty => exact List.nil_perm.mp hperm

/-- **The order of an object's members does not count.** -/
theorem ofJson?_object_of_perm (h : members.Perm members') :
    ofJson? (.object members) = ofJson? (.object members') := by
  refine Option.ext fun c => ?_
  rw [ofJson?_eq_some_iff, ofJson?_eq_some_iff]
  exact ⟨fun hc => hc.of_perm h, fun hc => hc.of_perm h.symm⟩

/-- **A member that is no field does not count.** -/
theorem ofJson?_object_cons_of_other {key : String}
    (hkey : key ∉ ["name", "kind", "signature"]) (value : JsonValue) :
    ofJson? (.object ((some key, value) :: members)) = ofJson? (.object members) := by
  have hvalues : ∀ n ∈ ["name", "kind", "signature"],
      JsonValue.valuesOf n ((some key, value) :: members) = JsonValue.valuesOf n members := by
    intro n hn
    have hne : ¬ ((some key : Option String) == some n) = true := by
      rw [beq_iff_eq, Option.some_inj]
      rintro rfl
      exact hkey hn
    rw [JsonValue.valuesOf, JsonValue.valuesOf, List.filter_cons_of_neg (by exact hne)]
  have hfields : JsonValue.fields? ["name", "kind", "signature"]
        (.object ((some key, value) :: members)) =
      JsonValue.fields? ["name", "kind", "signature"] (.object members) := by
    refine Option.ext fun values => ?_
    rw [JsonValue.fields?_object_eq_some_iff, JsonValue.fields?_object_eq_some_iff,
      List.forall_mem_cons, List.map_congr_left hvalues]
    simp
  rw [ofJson?, ofJson?, hfields]

end

/-! ## 4. Texts -/

section

variable (lib : JsonLibrary)

/-- The text of a candidate. -/
def text (c : Candidate) : String := lib.print c.toJson

/-- Reads a candidate from a text. -/
def ofText? (text : String) : Option Candidate := (lib.parse? text).bind ofJson?

end

/-- What is written is a form of the candidate, with the signature left out when it is empty. -/
theorem isForm_toJson (c : Candidate) : c.IsForm c.toJson := by
  rw [toJson]
  split
  · next hempty => exact .object (by simp) rfl rfl .word rfl (.missing hempty)
  · exact .object (by simp) rfl rfl .word rfl .text

theorem isTextual_toJson (c : Candidate) : c.toJson.IsTextual := by
  have htexts : ∀ ms : List (String × String),
      (JsonValue.ofMembers (ms.map fun m => (m.1, .ofString m.2))).IsTextual := by
    intro ms
    refine .object ?_ ?_ <;> simp only [List.map_map, List.forall_mem_map]
    · exact fun _ _ => rfl
    · exact fun m _ => .string m.2
  rw [toJson]
  split
  · exact htexts [("name", c.name), ("kind", c.kind.word)]
  · exact htexts [("name", c.name), ("kind", c.kind.word), ("signature", c.signature)]

variable {lib : JsonLibrary}

theorem ofText?_text (hlib : lib.ReadsBack) (c : Candidate) :
    ofText? lib (c.text lib) = some c := by
  rw [ofText?, text, hlib _ (isTextual_toJson c), Option.bind_some]
  exact ofJson?_eq_some_iff.mpr (isForm_toJson c)

/-- **A candidate and its texts.**  A candidate is read back from its text; so candidates with a
text in common are the same, even when the one was written differently from the other, as long as
both are read the same.  The texts that are read are those of the candidate's forms, and what was
read is read again after it has been written. -/
theorem text_faithful (hlib : lib.ReadsBack) :
    (∀ c : Candidate, ofText? lib (c.text lib) = some c) ∧
    (∀ lib' : JsonLibrary, lib'.ReadsBack → lib'.parse? = lib.parse? →
      ∀ c c' : Candidate, c.text lib = c'.text lib' → c = c') ∧
    (∀ s (c : Candidate), ofText? lib s = some c ↔ ∃ v, lib.parse? s = some v ∧ c.IsForm v) ∧
    ∀ s, ((ofText? lib s).bind fun c => ofText? lib (c.text lib)) = ofText? lib s := by
  refine ⟨ofText?_text hlib, ?_, ?_, ?_⟩
  · intro lib' hlib' hparse c c' h
    have hread : ofText? lib (c'.text lib') = some c' := by
      rw [ofText?, ← hparse]
      exact ofText?_text hlib' c'
    rw [← Option.some_inj, ← ofText?_text hlib c, h, hread]
  · intro s c
    rw [ofText?, Option.bind_eq_some_iff]
    simp only [ofJson?_eq_some_iff]
  · intro s
    simp only [ofText?_text hlib, Option.bind_fun_some]

/-- A function without a signature, written without blanks. -/
def compactText : String := "\x7b\"name\":\"Go\",\"kind\":\"func\"\x7d"

theorem text_faithful_compact :
    (JsonLibrary.inLayout .compact).ReadsBack ∧ JsonLibrary.standard.ReadsBack ∧
    text (.inLayout .compact) ⟨"Go", .func, ""⟩ = compactText ∧
    ofText? (.inLayout .compact) compactText = some ⟨"Go", .func, ""⟩ ∧
    text (.inLayout .compact) ⟨"Go", .func, ""⟩ ≠ text .standard ⟨"Go", .func, "func()"⟩ := by
  have htext : text (.inLayout .compact) ⟨"Go", .func, ""⟩ = compactText := by decide +kernel
  have hcompact := JsonLibrary.readsBack_inLayout .compact
  have hstandard := JsonLibrary.readsBack_standard
  obtain ⟨hread, hapart, -⟩ := text_faithful hcompact
  refine ⟨hcompact, hstandard, htext, htext ▸ hread ⟨"Go", .func, ""⟩, fun hsame => ?_⟩
  exact absurd (hapart .standard hstandard rfl _ _ hsame) (by decide)

example : ofText? .standard "[\"Go\", \x7b\"func\": null\x7d]" = some ⟨"Go", .func, ""⟩ := by
  decide +kernel

end Candidate

end GoResolver

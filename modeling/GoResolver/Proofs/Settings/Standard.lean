import GoResolver.Proofs.Settings.Guessing
import GoResolver.Proofs.Toml.Documents

/-!
# The settings library of the program

The functions that the program reads and writes settings with have all the properties that are
relied on: `overlays_standard`, `readsTables_standard`, `readsBack_standard` and
`readsPlain_standard`.

`Setting.stack` lays the entries of the upper layer over the lower one in turn.  It takes a layer
without two entries of one name for that to be the same as going by names, because the second entry
would be laid over the first.
-/

namespace GoResolver.Setting

variable {lower upper : Layer}

/-! ## 1. Layers -/

theorem nodup_stack (h : (lower.map Prod.fst).Nodup) (upper : Layer) :
    ((stack lower upper).map Prod.fst).Nodup := by
  induction upper generalizing lower with
  | nil => rwa [stack]
  | cons e upper ih =>
    rw [stack]
    exact ih (nodup_setEntry h e.1 _)

theorem overlay_eq_overlaid (v : Setting) (below : Option Setting) :
    v.overlay below = SettingsLibrary.standard.overlaid below v := by
  unfold overlay
  split
  · rfl
  · next hnot =>
    cases v with
    | table entries =>
      cases below with
      | none => rfl
      | some w =>
        cases w with
        | table lower => exact absurd rfl (hnot entries lower rfl)
        | _ => rfl
    | _ => rfl

/-- **A name leads to what the upper layer has laid over what the lower one has.** -/
theorem lookup_stack (hnodup : (upper.map Prod.fst).Nodup) (lower : Layer) (name : String) :
    (stack lower upper).lookup name =
      ((upper.lookup name).map (SettingsLibrary.standard.overlaid (lower.lookup name)) <|>
        lower.lookup name) := by
  induction upper generalizing lower with
  | nil =>
    rw [stack]
    rfl
  | cons e upper ih =>
    obtain ⟨first, v⟩ := e
    rw [List.map_cons, List.nodup_cons] at hnodup
    rw [stack, ih hnodup.2, List.lookup_cons]
    by_cases hname : name = first
    · subst hname
      have hnone : upper.lookup name = none := lookup_eq_none_of_not_mem hnodup.1
      rw [hnone, lookup_setEntry_self, beq_self_eq_true, overlay_eq_overlaid]
      rfl
    · have hne : (name == first) = false := by simpa using hname
      rw [lookup_setEntry_of_ne hname, hne]

end GoResolver.Setting

namespace GoResolver.SettingsLibrary

theorem overlays_standard : standard.Overlays where
  names _ upper hlower _ := Setting.nodup_stack hlower upper
  lookup lower _ _ hupper name := Setting.lookup_stack hupper lower name

/-! ## 2. Files -/

theorem readsTables_standard : standard.ReadsTables :=
  fun _ _ hentries => Toml.isTable_of_parse? hentries

theorem readsBack_standard : standard.ReadsBack := fun _ hd => Toml.parse?_text hd

/-! ## 3. Variables -/

/-- A plain text that is no truth value is a bare one. -/
theorem valueOf_standard_of_not_truth {text : String} (h : Variable.IsPlain text.toList)
    (hnot : ∀ b : Bool, text.toList ≠ (toString b).toList) :
    standard.valueOf text = Variable.bare text.toList := by
  rcases Variable.valueOf_of_isPlain h with ⟨b, hb, -⟩ | ⟨-, hbare⟩
  · exact absurd hb (hnot b)
  · exact hbare

theorem valueOf_standard_of_number {text : String}
    (h : Variable.IsWhole text.toList ∨ Variable.IsFraction text.toList) :
    standard.valueOf text = Variable.bare text.toList := by
  refine valueOf_standard_of_not_truth (Variable.isPlain_of_number h) fun b hb => ?_
  rw [hb, ← List.append_nil (toString b).toList] at h
  exact Variable.not_number_of_truth b [] h

theorem readsPlain_standard : standard.ReadsPlain where
  truth b := by
    have hplain : Variable.IsPlain (toString b).toList := by
      cases b <;> decide +kernel
    rcases Variable.valueOf_of_isPlain hplain with ⟨b', hb', hvalue⟩ | ⟨hnot, -⟩
    · have hsame : b = b' := by cases b <;> cases b' <;> first | rfl | cases hb'
      exact hsame ▸ hvalue
    · exact absurd rfl (hnot b)
  whole _ h := (valueOf_standard_of_number (.inl h)).trans (Variable.bare_of_isWhole h)
  fraction _ h := by
    obtain ⟨x, hx⟩ := Variable.bare_of_isFraction h
    exact ⟨x, (valueOf_standard_of_number (.inr h)).trans hx⟩
  text text hplain hnot := by
    rw [valueOf_standard_of_not_truth hplain fun b hb => hnot (.inl ⟨b, hb⟩),
      Variable.bare_eq_string hplain.2 fun hnumber => hnot (.inr hnumber), String.ofList_toList]

end GoResolver.SettingsLibrary

import GoResolver.Proofs.Settings.PlainTexts
import GoResolver.Proofs.Toml.Drafts
import GoResolver.Settings.Library

/-!
# What is relied on of a settings library

Nothing that is proved of settings depends on how the four functions of a `SettingsLibrary` work.
It depends on some of the following facts, and each theorem about settings names, as its leading
hypotheses, those that it uses:

* `Overlays`: layers are laid over each other name by name;
* `ReadsTables`: no table of a file that was read has two entries of one name;
* `ReadsBack`: a document that was written is read back;
* `ReadsPlain`: what the texts of letters, digits and points denote.

Each of them speaks of a single one of the functions, or of writing and reading, and none of them of
settings.  `GoResolver.Proofs.Settings.Standard` proves all four of the functions that the program
runs with.
-/

namespace GoResolver.SettingsLibrary

variable (lib : SettingsLibrary)

/-- A value over the value that there may be below it: two tables are laid over each other, and any
other value replaces what is below it. -/
def overlaid (below : Option Setting) : Setting → Setting
  | .table upper =>
    match below with
    | some (.table lower) => .table (lib.stack lower upper)
    | _ => .table upper
  | v => v

/-- **Layers are laid over each other name by name.**  What the upper layer does not mention shows
through.  A layer does not have two entries of one name, and neither does one that was laid over
another. -/
structure Overlays : Prop where
  names : ∀ lower upper : Layer, (lower.map Prod.fst).Nodup → (upper.map Prod.fst).Nodup →
    ((lib.stack lower upper).map Prod.fst).Nodup
  lookup : ∀ lower upper : Layer, (lower.map Prod.fst).Nodup → (upper.map Prod.fst).Nodup →
    ∀ name, (lib.stack lower upper).lookup name =
      ((upper.lookup name).map (lib.overlaid (lower.lookup name)) <|> lower.lookup name)

/-- No table of a file has two entries of one name. -/
def ReadsTables : Prop :=
  ∀ text entries, lib.parse? text = some entries → Toml.IsTable Toml.Value.IsProper entries

/-- **A document that was written is read back**, if it is one that can be written. -/
def ReadsBack : Prop := ∀ d : Toml.Draft, d.IsPlain → lib.parse? (lib.print d) = some d.entries

/-- **What plain texts denote.**  Truth values and numbers are guessed from the text alone, and any
other plain text stands for itself. -/
structure ReadsPlain : Prop where
  truth : ∀ b : Bool, lib.valueOf (toString b) = .boolean b
  whole : ∀ text : String, Variable.IsWhole text.toList →
    lib.valueOf text = .unsigned (Text.value 10 text.toList)
  fraction : ∀ text : String, Variable.IsFraction text.toList → ∃ x, lib.valueOf text = .float x
  text : ∀ text : String, Variable.IsPlain text.toList → ¬ Variable.IsGuessed text.toList →
    lib.valueOf text = .string text

/-! ## Laying over -/

variable {lib}

/-- A value that is no table replaces what is below it. -/
theorem overlaid_of_not_table {v : Setting} (h : ∀ es, v ≠ .table es) (below : Option Setting) :
    lib.overlaid below v = v := by
  cases v with
  | table es => exact absurd rfl (h es)
  | _ => rfl

/-- Where both layers are empty, so is what they come to. -/
theorem Overlays.stack_nil_nil (h : lib.Overlays) : lib.stack [] [] = [] := by
  have hlookup := h.lookup [] [] List.nodup_nil List.nodup_nil
  cases hstack : lib.stack [] [] with
  | nil => rfl
  | cons e es =>
    have hfirst := hlookup e.1
    rw [hstack, List.lookup_cons_self] at hfirst
    cases hfirst

end GoResolver.SettingsLibrary

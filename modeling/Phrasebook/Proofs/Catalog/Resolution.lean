/-
This file says which language is chosen for a locale. The main statement is which of the known
languages a locale can reach, and when their order matters.
-/

import Mathlib.Tactic.ByContra
import Phrasebook.Catalog.Language
import Phrasebook.Proofs.Lists

namespace Phrasebook.Language

/-- The code of the language starts the text. -/
def Starts (language text : String) : Prop :=
  language.toList <+: text.toList

theorem Starts.refl (language : String) : Starts language language :=
  List.prefix_refl _

theorem Starts.trans {first second text : String} (left : Starts first second)
    (right : Starts second text) : Starts first text :=
  List.IsPrefix.trans left right

/-- Of two languages that start the same text, one starts the other. -/
theorem Starts.total {first second text : String} (left : Starts first text)
    (right : Starts second text) : Starts first second ∨ Starts second first :=
  List.prefix_or_prefix_of_prefix left right

/-- Whether a language may be chosen for a locale. -/
def fits (requested default language : String) : Bool :=
  language != default && language.toList.isPrefixOf requested.toList

theorem fits_iff {requested default language : String} :
    fits requested default language ↔ language ≠ default ∧ Starts language requested := by
  rw [fits, Bool.and_eq_true, bne_iff_ne, List.isPrefixOf_iff_prefix]
  rfl

theorem resolve_eq (requested : String) (known : List String) (default : String) :
    resolve requested known default = (known.find? (fits requested default)).getD default := rfl

section

variable {known : List String} {default requested language : String}

theorem resolve_eq_default_iff : resolve requested known default = default ↔
    ∀ language ∈ known, language ≠ default → ¬Starts language requested := by
  have unfit : known.find? (fits requested default) = none ↔
      ∀ language ∈ known, language ≠ default → ¬Starts language requested := by
    simp only [List.find?_eq_none, fits_iff, not_and]
  rw [← unfit, resolve_eq]
  constructor
  · intro isDefault
    rw [Option.eq_none_iff_forall_ne_some]
    intro found isFound
    rw [isFound, Option.getD_some] at isDefault
    exact (fits_iff.mp (List.find?_some isFound)).1 isDefault
  · intro none
    rw [none, Option.getD_none]

/-- A language is chosen exactly where no other one before it starts the locale. -/
theorem resolve_eq_iff (other : language ≠ default) :
    resolve requested known default = language ↔
      language ∈ known ∧ Starts language requested ∧
        ∀ earlier ∈ known.takeWhile (· != language), earlier ≠ default →
          ¬Starts earlier requested := by
  have isFound : resolve requested known default = language ↔
      known.find? (fits requested default) = some language := by
    rw [resolve_eq, Option.getD_eq_iff]
    exact or_iff_left fun fallback => other fallback.2.symm
  rw [isFound, Lists.find?_eq_some_iff_takeWhile]
  simp only [fits_iff, not_and, other, ne_eq, not_false_eq_true, true_and]

/-- A language that some locale reaches is reached by its own code. -/
theorem resolve_self_iff (member : language ∈ known) (other : language ≠ default) :
    resolve language known default = language ↔
      ∀ earlier ∈ known.takeWhile (· != language), earlier ≠ default →
        ¬Starts earlier language := by
  rw [resolve_eq_iff other, and_iff_right member, and_iff_right (Starts.refl language)]

theorem resolve_self_of_resolve (other : language ≠ default)
    (reached : resolve requested known default = language) :
    resolve language known default = language := by
  obtain ⟨member, starts, first⟩ := (resolve_eq_iff other).mp reached
  rw [resolve_self_iff member other]
  intro earlier isEarlier differs shadows
  exact first earlier isEarlier differs (shadows.trans starts)

/-- Where no language starts another one, at most one fits a locale. -/
theorem resolve_perm {rearranged : List String} (permutation : rearranged.Perm known)
    (apart : ∀ first ∈ known, ∀ second ∈ known, first ≠ default → second ≠ default →
      Starts first second → first = second) :
    resolve requested rearranged default = resolve requested known default := by
  rw [resolve_eq, resolve_eq, Lists.find?_perm permutation]
  intro first isFirst second isSecond firstFits secondFits
  obtain ⟨firstOther, firstStarts⟩ := fits_iff.mp firstFits
  obtain ⟨secondOther, secondStarts⟩ := fits_iff.mp secondFits
  rcases firstStarts.total secondStarts with shorter | longer
  · exact apart first isFirst second isSecond firstOther secondOther shorter
  · exact (apart second isSecond first isFirst secondOther firstOther longer).symm

theorem resolve_of_head (other : language ≠ default) (starts : Starts language requested)
    (rest : List String) : resolve requested (language :: rest) default = language := by
  rw [resolve_eq_iff other]
  exact ⟨List.mem_cons_self, starts, by simp⟩

end

/-- The default is chosen exactly where no other known language starts the locale. Another known
language is chosen for some locale exactly where none before it starts its code, and then it is
chosen for its code. The order of the known languages does not matter exactly where none of the
others starts another one. -/
theorem resolve_reach (known : List String) (default : String) :
    (∀ requested, resolve requested known default = default ↔
      ∀ language ∈ known, language ≠ default → ¬Starts language requested) ∧
    (∀ language ∈ known, language ≠ default →
      ((∃ requested, resolve requested known default = language) ↔
        ∀ earlier ∈ known.takeWhile (· != language), earlier ≠ default →
          ¬Starts earlier language) ∧
      ((∃ requested, resolve requested known default = language) →
        resolve language known default = language)) ∧
    ((∀ rearranged, rearranged.Perm known → ∀ requested,
        resolve requested rearranged default = resolve requested known default) ↔
      ∀ first ∈ known, ∀ second ∈ known, first ≠ default → second ≠ default →
        Starts first second → first = second) := by
  refine ⟨fun requested => resolve_eq_default_iff, ?_, ?_⟩
  · intro language member other
    have reached : (∃ requested, resolve requested known default = language) →
        resolve language known default = language := by
      rintro ⟨requested, isReached⟩
      exact resolve_self_of_resolve other isReached
    refine ⟨?_, reached⟩
    rw [← resolve_self_iff member other]
    exact ⟨reached, fun isReached => ⟨language, isReached⟩⟩
  · constructor
    · -- for the code of the longer language, whichever of the two stands first is chosen
      intro same first isFirst second isSecond firstOther secondOther starts
      have shorter := same _ (List.perm_cons_erase isFirst).symm second
      have longer := same _ (List.perm_cons_erase isSecond).symm second
      rw [resolve_of_head firstOther starts] at shorter
      rw [resolve_of_head secondOther (Starts.refl second)] at longer
      exact shorter.trans longer.symm
    · intro apart rearranged permutation requested
      exact resolve_perm permutation apart

/-- Behind `de`, the language `de_CH` is never chosen, and in another order it would be. -/
theorem resolve_reach_mutual :
    (¬∃ requested, resolve requested ["en", "de", "de_CH", "fr"] "en" = "de_CH") ∧
      resolve "fr" ["en", "de", "de_CH", "fr"] "en" = "fr" ∧
      resolve "english" ["en", "de", "de_CH", "fr"] "en" = "en" ∧
      ∃ rearranged, rearranged.Perm ["en", "de", "de_CH", "fr"] ∧ ∃ requested,
        resolve requested rearranged "en" ≠ resolve requested ["en", "de", "de_CH", "fr"] "en" := by
  have starts : Starts "de" "de_CH" := ⟨['_', 'C', 'H'], rfl⟩
  obtain ⟨isDefault, reach, order⟩ := resolve_reach ["en", "de", "de_CH", "fr"] "en"
  obtain ⟨behind, _⟩ := reach "de_CH" (by decide) (by decide)
  obtain ⟨alone, itself⟩ := reach "fr" (by decide) (by decide)
  refine ⟨?_, itself (alone.mpr ?_), (isDefault "english").mpr ?_, ?_⟩
  · rw [behind]
    intro unshadowed
    exact unshadowed "de" (by decide) (by decide) starts
  · unfold Starts
    decide
  · unfold Starts
    decide
  · by_contra noOther
    push Not at noOther
    have same :=
      order.mp noOther "de" (by decide) "de_CH" (by decide) (by decide) (by decide) starts
    exact absurd same (by decide)

end Phrasebook.Language

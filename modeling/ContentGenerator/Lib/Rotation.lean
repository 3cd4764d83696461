import Mathlib.Data.List.Basic

/-!
# Rotating tokens

Tokens are issued in chains: a chain starts with one token, and using a token issues its successor. `OneTip`
says that every chain has exactly one token that is still unused. It holds of no tokens, and starting a chain
(`OneTip.start`) and rotating an unused token (`OneTip.rotate`) keep it.
-/

namespace ContentGenerator.Lib

open List

variable {α κ : Type*}

/-- Every chain of the issued tokens has exactly one token that has not been used. -/
structure OneTip (issued : List α) (chain : α → κ) (used : α → Prop) : Prop where
  unique : ∀ a ∈ issued, ∀ b ∈ issued, chain a = chain b → ¬ used a → ¬ used b → a = b
  exists_tip : ∀ a ∈ issued, ∃ tip ∈ issued, chain tip = chain a ∧ ¬ used tip

variable {issued : List α} {chain chain' : α → κ} {used used' : α → Prop} {new tip : α}

theorem oneTip_nil : OneTip ([] : List α) chain used :=
  ⟨fun _ ha ↦ (not_mem_nil ha).elim, fun _ ha ↦ (not_mem_nil ha).elim⟩

/-- Only the chains and the uses of issued tokens matter. -/
theorem OneTip.congr (h : OneTip issued chain used) (hchain : ∀ a ∈ issued, chain' a = chain a)
    (hused : ∀ a ∈ issued, used' a ↔ used a) : OneTip issued chain' used' := by
  refine ⟨fun a ha b hb hab hua hub ↦ ?_, fun a ha ↦ ?_⟩
  · rw [hchain a ha, hchain b hb] at hab
    rw [hused a ha] at hua
    rw [hused b hb] at hub
    exact h.unique a ha b hb hab hua hub
  · obtain ⟨tip, htip, hsame, hunused⟩ := h.exists_tip a ha
    refine ⟨tip, htip, ?_, ?_⟩
    · rw [hchain tip htip, hchain a ha]
      exact hsame
    · rw [hused tip htip]
      exact hunused

/-- A new token starts a chain of its own. -/
theorem OneTip.start (h : OneTip issued chain used) (hnew : ∀ a ∈ issued, chain a ≠ chain new)
    (hunused : ¬ used new) : OneTip (issued ++ [new]) chain used := by
  refine ⟨fun a ha b hb hab hua hub ↦ ?_, fun a ha ↦ ?_⟩
  · rcases mem_append.mp ha with ha | ha
    · rcases mem_append.mp hb with hb | hb
      · exact h.unique a ha b hb hab hua hub
      · rw [mem_singleton.mp hb] at hab
        exact (hnew a ha hab).elim
    · rw [mem_singleton.mp ha] at hab ⊢
      rcases mem_append.mp hb with hb | hb
      · exact (hnew b hb hab.symm).elim
      · exact (mem_singleton.mp hb).symm
  · rcases mem_append.mp ha with ha | ha
    · obtain ⟨tip, htip, hsame, htipUnused⟩ := h.exists_tip a ha
      exact ⟨tip, mem_append_left _ htip, hsame, htipUnused⟩
    · rw [mem_singleton.mp ha]
      exact ⟨new, mem_append_right _ (mem_singleton_self new), rfl, hunused⟩

/-- Using the tip of a chain issues its successor. -/
theorem OneTip.rotate (h : OneTip issued chain used) (htip : tip ∈ issued) (hunused : ¬ used tip)
    (hchain : chain new = chain tip) (hfresh : ¬ used new) (hne : new ≠ tip) :
    OneTip (issued ++ [new]) chain (fun a ↦ a = tip ∨ used a) := by
  -- no issued token of the chain but the tip was unused
  have hspent : ∀ a ∈ issued, chain a = chain tip → ¬ (a = tip ∨ used a) → False := by
    intro a ha hsame hua
    rw [not_or] at hua
    exact hua.1 (h.unique a ha tip htip hsame hua.2 hunused)
  refine ⟨fun a ha b hb hab hua hub ↦ ?_, fun a ha ↦ ?_⟩
  · rcases mem_append.mp ha with ha | ha
    · rcases mem_append.mp hb with hb | hb
      · rw [not_or] at hua hub
        exact h.unique a ha b hb hab hua.2 hub.2
      · rw [mem_singleton.mp hb, hchain] at hab
        exact (hspent a ha hab hua).elim
    · rw [mem_singleton.mp ha] at hab ⊢
      rcases mem_append.mp hb with hb | hb
      · rw [hchain] at hab
        exact (hspent b hb hab.symm hub).elim
      · exact (mem_singleton.mp hb).symm
  · have hnew : new ∈ issued ++ [new] := mem_append_right _ (mem_singleton_self new)
    have hnewUnused : ¬ (new = tip ∨ used new) := not_or.mpr ⟨hne, hfresh⟩
    rcases mem_append.mp ha with ha | ha
    · by_cases hsame : chain a = chain tip
      · exact ⟨new, hnew, hchain.trans hsame.symm, hnewUnused⟩
      · obtain ⟨other, hother, hotherChain, hotherUnused⟩ := h.exists_tip a ha
        refine ⟨other, mem_append_left _ hother, hotherChain, not_or.mpr ⟨?_, hotherUnused⟩⟩
        rintro rfl
        exact hsame hotherChain.symm
    · rw [mem_singleton.mp ha]
      exact ⟨new, hnew, rfl, hnewUnused⟩

end ContentGenerator.Lib

import ContentGenerator.Lib.Transition

/-!
# Fresh tokens in a slot

A slot that holds at most one token, with the counter from which fresh tokens are drawn. A step keeps
the holder, clears the slot, or puts a fresh token into it. What every lease relies on: a token that
was issued and is no longer held is never held again (`Retired.run`).
-/

namespace ContentGenerator.Lib

/-- The token held, and the first token that has not been drawn. -/
structure TokenSlot where
  holder : Option ℕ
  next : ℕ

namespace TokenSlot

inductive Step (s : TokenSlot) : TokenSlot → Prop
  | keep (next : ℕ) (h : s.next ≤ next) : Step s ⟨s.holder, next⟩
  | clear (next : ℕ) (h : s.next ≤ next) : Step s ⟨none, next⟩
  | issue (token next : ℕ) (hfresh : s.next ≤ token) (hnext : token < next) :
      Step s ⟨some token, next⟩

def Issued (s : TokenSlot) : Prop := ∀ token, s.holder = some token → token < s.next

def Retired (token : ℕ) (s : TokenSlot) : Prop := token < s.next ∧ s.holder ≠ some token

variable {s s' : TokenSlot}

theorem Step.next_le (hstep : s.Step s') : s.next ≤ s'.next := by
  cases hstep with
  | keep next h => exact h
  | clear next h => exact h
  | issue token next hfresh hnext => exact Nat.le_trans hfresh (Nat.le_of_lt hnext)

theorem Issued.step (h : s.Issued) (hstep : s.Step s') : s'.Issued := by
  intro token htoken
  cases hstep with
  | keep next hnext => exact Nat.lt_of_lt_of_le (h token htoken) hnext
  | clear next _ => simp at htoken
  | issue fresh next _ hnext => exact Option.some.inj htoken ▸ hnext

theorem Issued.run (h : s.Issued) (hrun : Relation.ReflTransGen Step s s') : s'.Issued :=
  ReflTransGen.invariant (fun _ _ hinv hstep ↦ hinv.step hstep) hrun h

theorem Retired.step {token : ℕ} (h : Retired token s) (hstep : s.Step s') : Retired token s' := by
  obtain ⟨hdrawn, hfree⟩ := h
  cases hstep with
  | keep next hnext => exact ⟨Nat.lt_of_lt_of_le hdrawn hnext, hfree⟩
  | clear next hnext => exact ⟨Nat.lt_of_lt_of_le hdrawn hnext, by simp⟩
  | issue fresh next hfresh hnext =>
    have hlt : token < fresh := Nat.lt_of_lt_of_le hdrawn hfresh
    refine ⟨Nat.lt_trans hlt hnext, fun heq ↦ ?_⟩
    exact absurd (Option.some.inj heq) (Nat.ne_of_gt hlt)

/-- A token that is no longer held is never held again. -/
theorem Retired.run {token : ℕ} (h : Retired token s)
    (hrun : Relation.ReflTransGen Step s s') : Retired token s' :=
  ReflTransGen.invariant (fun _ _ hinv hstep ↦ hinv.step hstep) hrun h

end TokenSlot

end ContentGenerator.Lib

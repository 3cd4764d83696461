import ContentGenerator.Lib.PyJoin
import ContentGenerator.Approvals.Bindings

/-!
# Signed callback data

The buttons of a Telegram card carry `action:identifier:signature` (`build_signed_callback_data`). The
decoder splits at every colon and looks at the number of parts. Three parts are checked against the
signature; two parts are accepted without one, and from the fourth part on the parts are not looked at.

`verify_signed_callback_data_exact_iff` says for which data the decoder accepts only what the encoder
builds, and that it gives back whatever the encoder was given when that holds no colon. `compare_digest`
raises on a text outside ASCII; the digests are hexadecimal, so that in the model such a signature is wrong.
-/

namespace ContentGenerator.Approvals

open Lib List

variable {σ : Type}

def buildSignedCallbackData (p : Platform σ) (action identifier : String) : String :=
  action ++ ":" ++ identifier ++ ":" ++ p.signTelegramCallback (action ++ ":" ++ identifier)

theorem buildSignedCallbackData_eq_pyJoin (p : Platform σ) (action identifier : String) :
    buildSignedCallbackData p action identifier =
      pyJoin ':' [action, identifier, p.signTelegramCallback (action ++ ":" ++ identifier)] := by
  have hcolon : String.singleton ':' = ":" := rfl
  rw [pyJoin_cons_cons, pyJoin_cons_cons, pyJoin_singleton, hcolon, buildSignedCallbackData]
  simp only [String.append_assoc]

/-- The decoder accepts the data for an action and an identifier only if the encoder builds it for these. -/
def AcceptsOnlyBuilt (p : Platform σ) (data : String) : Prop :=
  ∀ action identifier, verifySignedCallbackData p data = (true, action, identifier) →
    data = buildSignedCallbackData p action identifier

/-- The data has three parts, or it is not accepted: it has one, or a third that is not the signature of
the first two. -/
def CheckedInFull (p : Platform σ) (data : String) : Prop :=
  match pySplit ':' data with
  | [_, _] => False
  | action :: identifier :: signature :: _ :: _ =>
    signature ≠ p.signTelegramCallback (action ++ ":" ++ identifier)
  | _ => True

variable {p : Platform σ}

/-- The data splits into what the encoder joined. Assumes: neither the action nor the identifier holds a
colon, and a signature never does. -/
theorem pySplit_buildSignedCallbackData
    (hsign : ∀ payload, ':' ∉ (p.signTelegramCallback payload).toList) {action identifier : String}
    (haction : ':' ∉ action.toList) (hidentifier : ':' ∉ identifier.toList) :
    pySplit ':' (buildSignedCallbackData p action identifier) =
      [action, identifier, p.signTelegramCallback (action ++ ":" ++ identifier)] := by
  rw [buildSignedCallbackData_eq_pyJoin]
  refine pySplit_pyJoin (fun part hpart ↦ ?_) (cons_ne_nil _ _)
  simp only [mem_cons, not_mem_nil, or_false] at hpart
  rcases hpart with rfl | rfl | rfl
  · exact haction
  · exact hidentifier
  · exact hsign _

/-- When the decoder accepts only what the encoder builds. Assumes: a signature holds no colon. -/
theorem acceptsOnlyBuilt_iff (hsign : ∀ payload, ':' ∉ (p.signTelegramCallback payload).toList)
    (data : String) : AcceptsOnlyBuilt p data ↔ CheckedInFull p data := by
  have hjoin := pyJoin_pySplit ':' data
  have hfree : ∀ part ∈ pySplit ':' data, ':' ∉ part.toList := fun part hpart ↦ notMem_of_mem_pySplit hpart
  unfold AcceptsOnlyBuilt CheckedInFull verifySignedCallbackData
  rcases hparts : pySplit ':' data with _ | ⟨action, _ | ⟨identifier, _ | ⟨signature, _ | ⟨extra, rest⟩⟩⟩⟩
  · exact iff_of_true (fun _ _ haccepted ↦ absurd haccepted (by simp)) trivial
  · exact iff_of_true (fun _ _ haccepted ↦ absurd haccepted (by simp)) trivial
  · -- an unsigned pair is accepted, and what the encoder builds for it has a third part
    rw [hparts] at hfree
    refine iff_of_false (fun hexact ↦ ?_) id
    have hbuilt := pySplit_buildSignedCallbackData hsign (hfree action (by simp)) (hfree identifier (by simp))
    rw [← hexact action identifier rfl, hparts] at hbuilt
    exact absurd (congrArg length hbuilt) (by simp)
  · -- the signature of the three parts is checked
    refine iff_of_true (fun action' identifier' haccepted ↦ ?_) trivial
    simp only [Prod.mk.injEq, decide_eq_true_eq] at haccepted
    obtain ⟨hsignature, rfl, rfl⟩ := haccepted
    rw [buildSignedCallbackData_eq_pyJoin, ← hsignature, ← hparts, hjoin]
  · -- the further parts are lost when the data is built again
    rw [hparts] at hfree
    dsimp only
    constructor
    · intro hexact hsignature
      have hbuilt := pySplit_buildSignedCallbackData hsign (hfree action (by simp)) (hfree identifier (by simp))
      rw [← hexact action identifier (by simp [hsignature]), hparts] at hbuilt
      exact absurd (congrArg length hbuilt) (by simp)
    · intro hwrong action' identifier' haccepted
      simp only [Prod.mk.injEq, decide_eq_true_eq] at haccepted
      exact absurd haccepted.1 hwrong

/-- For which data the decoder accepts only what the encoder builds; and what was built for an action and an
identifier without colons is accepted for these. Assumes: a signature, ten hexadecimal digits, holds no
colon. -/
theorem verify_signed_callback_data_exact_iff
    (hsign : ∀ payload, ':' ∉ (p.signTelegramCallback payload).toList) :
    (∀ data, (∀ action identifier, verifySignedCallbackData p data = (true, action, identifier) →
        data = buildSignedCallbackData p action identifier) ↔ CheckedInFull p data) ∧
      ∀ action identifier, ':' ∉ action.toList → ':' ∉ identifier.toList →
        verifySignedCallbackData p (buildSignedCallbackData p action identifier) =
          (true, action, identifier) := by
  refine ⟨acceptsOnlyBuilt_iff hsign, fun action identifier haction hidentifier ↦ ?_⟩
  unfold verifySignedCallbackData
  rw [pySplit_buildSignedCallbackData hsign haction hidentifier]
  simp only [decide_true]

/-- A platform whose signatures are the same ten digits. -/
def signingPlatform : Platform Unit := { mockPlatform [] with signTelegramCallback := fun _ ↦ "3f9a1c0b7e" }

/-- The approval button of a request is accepted as it was built. -/
theorem built_approval_is_accepted :
    verifySignedCallbackData signingPlatform (buildSignedCallbackData signingPlatform "approve"
        "6f9619ff-8b86-d011-b42d-00cf4fc964ff") =
      (true, "approve", "6f9619ff-8b86-d011-b42d-00cf4fc964ff") := by
  have hsign : ∀ payload, ':' ∉ (signingPlatform.signTelegramCallback payload).toList := by
    intro payload
    change ':' ∉ "3f9a1c0b7e".toList
    decide
  exact (verify_signed_callback_data_exact_iff hsign).2 _ _ (by decide) (by decide)

/-- Without a signature the approval is accepted as well. -/
theorem unsigned_approval_is_accepted :
    verifySignedCallbackData signingPlatform "approve:6f9619ff-8b86-d011-b42d-00cf4fc964ff" =
        (true, "approve", "6f9619ff-8b86-d011-b42d-00cf4fc964ff") ∧
      "approve:6f9619ff-8b86-d011-b42d-00cf4fc964ff" ≠
        buildSignedCallbackData signingPlatform "approve" "6f9619ff-8b86-d011-b42d-00cf4fc964ff" := by
  decide

end ContentGenerator.Approvals

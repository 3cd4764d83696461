import ContentGenerator.ChessVideo.Service
import ContentGenerator.Lib.Play

/-!
# The files of completed videos

A job that takes over the outputs of another one refers to the objects of that one, and the cleanup of a
deleted job removes its objects whoever else refers to them. Main result: `files_kept_iff`, the files of every
completed job are there in every state of a run exactly when no cleanup of the run removes a key that a
completed job refers to.
-/

namespace ContentGenerator.ChessVideo

open Lib Lib.Action Workflows Option KeyedTable
open VideoOp (apply)

variable {entry : ℕ × ChessVideoJob} {f : ChessVideoJob → ChessVideoJob} {key renderFingerprint : String}
  {objects : KeyedTable String String}

/-! ### The invariant -/

structure VideoOutputs.Stored (objects : KeyedTable String String) (outputs : VideoOutputs) : Prop where
  video : ∃ key, outputs.videoStorageKey = some key ∧ (objects.find key).isSome
  thumbnail : ∃ key, outputs.thumbnailStorageKey = some key ∧ (objects.find key).isSome

def FilesKept (s : VideoState) : Prop :=
  ∀ id job, s.jobs.find id = some job → job.status = .completed → job.outputs.Stored s.objects

/-- Every job that is offered for reuse has its files. -/
def OffersKept (s : VideoState) : Prop :=
  ∀ tenantId renderFingerprint entry, s.findReusableCompleted tenantId renderFingerprint = some entry →
    entry.2.outputs.Stored s.objects

/-- No completed job refers to a key that the cleanup removes. -/
def SparesFiles (s : VideoState) (cleanup : Cleanup) : Prop :=
  ∀ id job, s.jobs.find id = some job → job.status = .completed → ∀ key,
    job.outputs.videoStorageKey = some key ∨ job.outputs.thumbnailStorageKey = some key →
      cleanup.removes key = false

/-- If the operation is a cleanup, it removes no key that a completed job refers to. -/
def VideoOp.Spares (s : VideoState) : VideoOp → Prop
  | .cleanup index => ∀ pending, s.cleanups[index]? = some pending → SparesFiles s pending
  | _ => True

variable {p : Platform} {s : VideoState} {tenantId : String} {jobId : ℕ}

/-- An offer is a completed job. -/
theorem find_of_findReusableCompleted
    (h : s.findReusableCompleted tenantId renderFingerprint = some entry) :
    s.jobs.find entry.1 = some entry.2 ∧ entry.2.status = .completed := by
  obtain ⟨hmem, hpasses⟩ := List.mem_filter.mp (List.argmax_mem h)
  exact ⟨(find_eq_some_iff _ _ _).mpr hmem, (of_decide_eq_true hpasses).2.2.1⟩

theorem FilesKept.offers (h : FilesKept s) : OffersKept s := by
  intro tenantId renderFingerprint entry hentry
  obtain ⟨hfind, hstatus⟩ := find_of_findReusableCompleted hentry
  exact h entry.1 entry.2 hfind hstatus

/-- More objects do no harm. -/
theorem VideoOutputs.Stored.mono {objects' : KeyedTable String String} {outputs : VideoOutputs}
    (h : outputs.Stored objects) (hmore : ∀ key, (objects.find key).isSome → (objects'.find key).isSome) :
    outputs.Stored objects' := by
  obtain ⟨⟨video, hvideo, hvideoStored⟩, ⟨thumbnail, hthumbnail, hthumbnailStored⟩⟩ := h
  exact ⟨⟨video, hvideo, hmore video hvideoStored⟩, ⟨thumbnail, hthumbnail, hmore thumbnail hthumbnailStored⟩⟩

/-! ### Jobs -/

theorem keeps_updateJob
    (h : ∀ job, (f job).status = .completed → job.status = .completed ∧ (f job).outputs = job.outputs) :
    Keeps FilesKept (updateJob jobId f) := by
  refine keeps_modify fun s hs id job hjob hstatus ↦ ?_
  change (s.jobs.modify jobId f).find id = some job at hjob
  rw [find_modify] at hjob
  split_ifs at hjob with hid
  · obtain ⟨old, hold, rfl⟩ := map_eq_some_iff.mp hjob
    obtain ⟨hcompleted, houtputs⟩ := h old hstatus
    rw [houtputs]
    exact hs id old hold hcompleted
  · exact hs id job hjob hstatus

/-- Assignments that complete a job whose files are there. -/
theorem FilesKept.update (h : FilesKept s)
    (hf : ∀ job, (f job).outputs.Stored s.objects) :
    FilesKept { s with jobs := s.jobs.modify jobId f } := by
  intro id job hjob hstatus
  change (s.jobs.modify jobId f).find id = some job at hjob
  rw [find_modify] at hjob
  split_ifs at hjob with hid
  · obtain ⟨old, -, rfl⟩ := map_eq_some_iff.mp hjob
    exact hf old
  · exact h id job hjob hstatus

/-- A stage before the last one. -/
theorem triple_setProgress (stage : ChessVideoJobStatus) (progress : ℚ) (hstage : stage ≠ .completed) :
    Triple FilesKept (setProgress jobId stage progress) (fun _ ↦ FilesKept) FilesKept := by
  have hkeeps : Keeps FilesKept (setProgress jobId stage progress) :=
    keeps_updateJob fun _ hstatus ↦ absurd hstatus hstage
  exact hkeeps.triple

theorem stored_copyCachedOutputs (h : FilesKept s)
    (hentry : s.findReusableCompleted tenantId renderFingerprint = some entry) (now : Time)
    (job : ChessVideoJob) : (copyCachedOutputs p now entry.2 job).outputs.Stored s.objects := by
  obtain ⟨hvideo, hthumbnail⟩ := h.offers tenantId renderFingerprint entry hentry
  exact ⟨hvideo, hthumbnail⟩

/-! ### Uploads -/

def VideoState.HasObject (s : VideoState) (key : String) : Prop := (s.objects.find key).isSome

theorem find_put_isSome (other content : String)
    (h : (objects.find key).isSome) : ((objects.put other content).find key).isSome := by
  rw [find_put]
  split_ifs
  · exact isSome_some
  · exact h

/-- An upload adds its object and keeps the others. -/
theorem triple_tryUpload {Inv : VideoState → Prop} (failure : Option PyException) (key content : String)
    (hput : ∀ s, Inv s → Inv { s with objects := s.objects.put key content }) :
    Triple Inv (tryUpload p failure key content) (fun _ s ↦ Inv s ∧ s.HasObject key) Inv := by
  cases failure with
  | some exc => exact triple_raise fun _ hs ↦ hs
  | none =>
    refine triple_bind (triple_modify fun s hs ↦ ⟨hput s hs, ?_⟩) fun _ ↦ triple_pure fun _ hs ↦ hs
    unfold VideoState.HasObject
    dsimp only
    rw [find_put, if_pos rfl, isSome_some]

theorem FilesKept.put (h : FilesKept s) (key content : String) :
    FilesKept { s with objects := s.objects.put key content } :=
  fun id job hjob hstatus ↦ (h id job hjob hstatus).mono fun _ ↦ find_put_isSome key content

/-- A render keeps the files of all jobs, wherever it stops. -/
theorem triple_renderAndUpload (job : ChessVideoJob) (answers : RenderAnswers) :
    Triple FilesKept (renderAndUpload p tenantId jobId job answers) (fun _ ↦ FilesKept) FilesKept := by
  unfold renderAndUpload
  refine triple_bind (Keeps.triple (keeps_updateJob ?_)) fun _ ↦ ?_
  · exact fun _ hstatus ↦ ⟨hstatus, rfl⟩
  refine triple_bind (triple_setProgress .validating _ (by decide)) fun _ ↦ ?_
  refine triple_bind (triple_readOr fun _ hs ↦ hs) fun game ↦ ?_
  refine triple_bind (Keeps.triple (keeps_updateJob ?_)) fun _ ↦ ?_
  · exact fun _ hstatus ↦ ⟨hstatus, rfl⟩
  refine triple_bind (triple_setProgress .preparing _ (by decide)) fun _ ↦ ?_
  refine triple_bind (triple_setProgress .rendering _ (by decide)) fun _ ↦ ?_
  refine triple_bind (triple_readOr fun _ hs ↦ hs) fun encoded ↦ ?_
  refine triple_bind (triple_setProgress .encoding _ (by decide)) fun _ ↦ ?_
  refine triple_bind (triple_setProgress .uploading _ (by decide)) fun _ ↦ ?_
  refine triple_bind (triple_tryUpload answers.videoUpload _ _ fun s hs ↦ hs.put _ _) fun videoUrl ↦ ?_
  -- both objects are there when the row refers to them
  refine triple_bind ((triple_tryUpload answers.thumbnailUpload _ _ fun s hs ↦
    ⟨hs.1.put _ _, find_put_isSome _ _ hs.2⟩).mono (fun _ hs ↦ hs) (fun _ _ hs ↦ hs) fun _ hs ↦ hs.1)
    fun thumbUrl ↦ ?_
  exact triple_modify fun s hs ↦ hs.1.1.update fun job ↦ ⟨⟨_, rfl, hs.1.2⟩, ⟨_, rfl, hs.2⟩⟩

/-! ### Operations -/

theorem FilesKept.create (h : FilesKept s) (userId : Option String) (payload : ChessVideoCreateRequest)
    (catalogGame : Option CatalogGame) (now : Time) :
    FilesKept ((createVideoJob p tenantId userId payload catalogGame now).final s) := by
  have hcreates : Triple FilesKept (createVideoJob p tenantId userId payload catalogGame now)
      (fun _ ↦ FilesKept) FilesKept := by
    unfold createVideoJob
    refine triple_bind (triple_readOr fun _ hs ↦ hs) fun resolved ↦ ?_
    refine triple_bind (triple_readOr fun _ hs ↦ hs) fun game ↦ ?_
    refine triple_read_bind_eq fun s hs ↦ ?_
    refine triple_read_bind fun s' hs' ↦ ?_
    refine triple_bind (m := fun _ ↦ FilesKept) (triple_modify ?_) fun _ ↦ triple_pure fun _ hs ↦ hs
    rintro s' rfl id job hjob hstatus
    change (s'.jobs.insertNew _ _).find id = some job at hjob
    rw [find_insertNew] at hjob
    split_ifs at hjob with hnew
    · cases hcached : (s'.findReusableCompleted tenantId
          (p.computeRenderFingerprint game resolved.2.2)).filter fun entry ↦ entry.2.hasVideo with
      | none =>
        rw [hcached] at hjob
        rw [← Option.some.inj hjob] at hstatus
        cases hstatus
      | some entry =>
        rw [hcached] at hjob
        rw [← Option.some.inj hjob]
        exact stored_copyCachedOutputs hs (filter_eq_some_iff.mp hcached).1 now _
    · exact hs id job hjob hstatus
  exact hcreates.state h

/-- The `except` block marks a job that is not completed. -/
theorem keeps_failJob (exc : PyException) : Keeps FilesKept (failJob jobId exc) :=
  keeps_bind (keeps_updateJob fun _ hstatus ↦ absurd hstatus nofun) fun _ ↦ keeps_raise exc

theorem keeps_processJob (answers : RenderAnswers) : Keeps FilesKept (processJob p tenantId jobId answers) := by
  refine Triple.keeps (triple_bind (triple_readOr fun _ hs ↦ hs) fun job ↦ triple_ite
    (fun _ ↦ triple_pure fun _ hs ↦ hs) fun _ ↦ triple_read_bind_eq fun s hs ↦ ?_)
  cases hreusable : s.reusableFor tenantId jobId job with
  | none =>
    have hrender : Keeps FilesKept (tryCatch (renderAndUpload p tenantId jobId job answers) (failJob jobId)) :=
      keeps_tryCatch (triple_renderAndUpload job answers).keeps fun exc ↦ keeps_failJob exc
    exact triple_of_keeps (at_state hs) hrender
  | some entry =>
    obtain ⟨fingerprint, -, hentry⟩ := bind_eq_some_iff.mp hreusable
    refine triple_modify ?_
    rintro s' rfl
    exact hs.update fun job ↦ stored_copyCachedOutputs hs (filter_eq_some_iff.mp hentry).1 _ job

theorem keeps_retryJob : Keeps FilesKept (retryJob tenantId jobId) :=
  keeps_bind (keeps_readOr _) fun _ ↦ keeps_ite
    (fun _ ↦ keeps_updateJob fun _ hstatus ↦ absurd hstatus nofun) fun _ ↦ keeps_raise _

theorem keeps_deleteJob : Keeps FilesKept (deleteJob tenantId jobId) := by
  refine keeps_bind (keeps_readOr _) fun job ↦ keeps_modify fun s hs id row hrow hstatus ↦ ?_
  change (s.jobs.filter _).find id = some row at hrow
  rw [find_filter] at hrow
  exact hs id row (filter_eq_some_iff.mp hrow).1 hstatus

/-! ### Cleanups -/

theorem cleanup_apply {index : ℕ} {pending : Cleanup} (hpending : s.cleanups[index]? = some pending) :
    (VideoOp.cleanup index).apply p s =
      { s with
        objects := s.objects.filter fun objectKey _ ↦ !pending.removes objectKey
        cleanups := s.cleanups.eraseIdx index } := by
  simp only [apply, hpending]
  rfl

theorem find_filter_isSome {removes : String → Bool}
    (h : (objects.find key).isSome) :
    ((objects.filter fun objectKey _ ↦ !removes objectKey).find key).isSome ↔ removes key = false := by
  obtain ⟨content, hcontent⟩ := isSome_iff_exists.mp h
  rw [find_filter, hcontent, filter_some]
  cases removes key <;> simp

/-- A cleanup keeps the files of the completed jobs exactly when it spares their keys. -/
theorem FilesKept.cleanup_iff (h : FilesKept s) (index : ℕ) :
    FilesKept ((VideoOp.cleanup index).apply p s) ↔ (VideoOp.cleanup index).Spares s := by
  unfold VideoOp.Spares
  dsimp only
  cases hpending : s.cleanups[index]? with
  | none =>
    have hsame : (VideoOp.cleanup index).apply p s = s := by
      simp only [apply, hpending]
    rw [hsame]
    exact iff_of_true h nofun
  | some pending =>
    rw [cleanup_apply hpending]
    constructor
    · rintro hkept other hother id job hjob hstatus key hkey
      cases hother
      obtain ⟨⟨video, hvideo, hvideoStored⟩, ⟨thumbnail, hthumbnail, hthumbnailStored⟩⟩ := hkept id job hjob hstatus
      obtain ⟨⟨video', hvideo', hvideoBefore⟩, ⟨thumbnail', hthumbnail', hthumbnailBefore⟩⟩ := h id job hjob hstatus
      obtain rfl := mem_unique hvideo hvideo'
      obtain rfl := mem_unique hthumbnail hthumbnail'
      rcases hkey with hkey | hkey
      · obtain rfl := mem_unique hvideo hkey
        exact (find_filter_isSome hvideoBefore).mp hvideoStored
      · obtain rfl := mem_unique hthumbnail hkey
        exact (find_filter_isSome hthumbnailBefore).mp hthumbnailStored
    · intro hspares id job hjob hstatus
      obtain ⟨⟨video, hvideo, hvideoStored⟩, ⟨thumbnail, hthumbnail, hthumbnailStored⟩⟩ := h id job hjob hstatus
      have hkeys := hspares pending rfl id job hjob hstatus
      exact ⟨⟨video, hvideo, (find_filter_isSome hvideoStored).mpr (hkeys video (.inl hvideo))⟩,
        ⟨thumbnail, hthumbnail, (find_filter_isSome hthumbnailStored).mpr (hkeys thumbnail (.inr hthumbnail))⟩⟩

/-- One operation: only a cleanup can take files away. -/
theorem FilesKept.apply_iff (h : FilesKept s) (op : VideoOp) : FilesKept (op.apply p s) ↔ op.Spares s := by
  cases op with
  | create tenantId userId payload catalogGame now =>
    exact iff_of_true (h.create userId payload catalogGame now) trivial
  | process tenantId jobId answers => exact iff_of_true (keeps_processJob answers s h) trivial
  | retry tenantId jobId => exact iff_of_true (keeps_retryJob s h) trivial
  | delete tenantId jobId => exact iff_of_true (keeps_deleteJob s h) trivial
  | cleanup index => exact h.cleanup_iff index

/-- The files of every completed job, and of every job offered for reuse, are there in every state of a run
exactly when no cleanup of the run removes a key that a completed job refers to. -/
theorem files_kept_iff (p : Platform) (objects : KeyedTable String String) (ops : List VideoOp) :
    (∀ before after, ops = before ++ after →
      FilesKept (play (apply p) before { objects }) ∧
        OffersKept (play (apply p) before { objects })) ↔
    Along (apply p) (fun s op ↦ op.Spares s) ops { objects } := by
  have hstart : FilesKept { objects } := fun id job hjob ↦ absurd hjob nofun
  have hoffers : (∀ before after, ops = before ++ after →
        FilesKept (play (apply p) before { objects }) ∧
          OffersKept (play (apply p) before { objects })) ↔
      ∀ before after, ops = before ++ after → FilesKept (play (apply p) before { objects }) :=
    forall₃_congr fun before after hops ↦ and_iff_left_of_imp FilesKept.offers
  have hstates : Along (apply p) (fun s op ↦ FilesKept (op.apply p s)) ops { objects } ↔
      ∀ before after, ops = before ++ after → FilesKept (play (apply p) before { objects }) :=
    along_apply_iff ops hstart
  have hkept : ∀ s (op : VideoOp), FilesKept s → FilesKept (op.apply p s) → FilesKept (op.apply p s) :=
    fun _ _ _ h ↦ h
  have hstep : ∀ s (op : VideoOp), FilesKept s → (FilesKept (op.apply p s) ↔ op.Spares s) :=
    fun s op hs ↦ hs.apply_iff op
  rw [hoffers, ← hstates]
  exact along_congr hkept hstep ops hstart

/-! ### Deleting a job that has been copied -/

/-- A parser that takes every text. -/
def plainPlatform : Platform where
  parseChessInput text inputFormat :=
    .ok { inputFormat, normalizedPgn := text, startingFen := "start", moveCount := 1 }
  getPreset _ := .ok ()
  getBoardTheme _ := .ok ()
  computeRenderFingerprint game _ := game.normalizedPgn
  publicUrlFor objectKey := "/media/" ++ objectKey
  rendererVersion := "1"

/-- The same game twice: the second job takes over the video of the first one, which is then deleted. -/
def deleteCopiedJob : List VideoOp :=
  let payload : ChessVideoCreateRequest := { sourceText := some "1. e4 e5", inputFormat := "pgn" }
  [.create "t1" none payload none 1,
    .process "t1" 0
      { startedAt := 2, completedAt := 3,
        render := .ok
          { video := "mp4", thumbnail := "png", durationSeconds := 2, width := 720, height := 1280,
            fileSizeBytes := 3 } },
    .create "t1" none payload none 4,
    .delete "t1" 0,
    .cleanup 0]

/-- The second job is completed and its video is gone. -/
theorem copied_video_removed :
    ¬ ∀ before after, deleteCopiedJob = before ++ after →
      FilesKept (play (apply plainPlatform) before {}) ∧
        OffersKept (play (apply plainPlatform) before {}) := by
  intro h
  have hkept := (h deleteCopiedJob [] (List.append_nil _).symm).1
  have hjob : ((play (apply plainPlatform) deleteCopiedJob {}).jobs.find 1).map
      (fun job ↦ (job.status, job.outputs.videoStorageKey)) =
        some (.completed, some "tenants/t1/chess-videos/0/video.mp4") := by decide +kernel
  have hobject : ((play (apply plainPlatform) deleteCopiedJob {}).objects.find
      "tenants/t1/chess-videos/0/video.mp4") = none := by decide +kernel
  obtain ⟨job, hfind, heq⟩ := map_eq_some_iff.mp hjob
  obtain ⟨hstatus, hkey⟩ := Prod.mk.inj heq
  obtain ⟨key, hvideo, hstored⟩ := (hkept 1 job hfind hstatus).video
  obtain rfl := mem_unique hvideo hkey
  rw [hobject] at hstored
  exact Bool.false_ne_true hstored

end ContentGenerator.ChessVideo

import NasServices.NetCurl.CurlDownloadTask

/-!
# A resumed download is a prefix of the resource

While nothing goes wrong, what was written to the temporary file is a prefix of
the resource, and nothing of it waits in the stream's buffer when an attempt
starts; so the size that `SetFileSize` reads is its length (`Intact`,
`Intact.resumesAt`). Three kinds of step break this (`Corrupts`):

* an error reply writes its body to the temporary file, where a later attempt
  takes it for the beginning of the resource;
* an attempt ends without closing the stream, to be tried again or by the
  `return` for `CURLE_PARTIAL_FILE`, while bytes wait in the buffer: the next
  size does not count them, and the seek after it writes them;
* `ResumeBreakPoint` is called while `Perform` still runs, and takes over a
  stream that `Perform` closes, or a file that it renames.
-/

namespace Nas.NetCurl

open Lib (AppendFile Along run)

def Transfer.base (t : Transfer) : Nat := t.offset.getD 0

structure Transfer.Fits (R : Bytes) (f : AppendFile UInt8) (t : Transfer) : Prop where
  contents : f.contents = R.take t.base ++ t.body.take t.received
  content : t.isError = false → t.body = R.drop t.base
  error : t.isError = true → t.base = 0

/-- Between two attempts the buffer is empty; an attempt has a file to work on. -/
def Synced (R : Bytes) (f : AppendFile UInt8) : Option Perform → Prop
  | none => f.unflushed = []
  | some (.top _) => f.unflushed = [] ∧ f.disk?.isSome
  | some (.transfer _ t) => t.Fits R f ∧ f.disk?.isSome

variable {R : Bytes}

theorem Synced.openAppend {f : AppendFile UInt8} {p : Option Perform} (h : Synced R f p) :
    Synced R f.openAppend p := by
  match p, h with
  | none, h => exact (f.unflushed_openAppend).trans h
  | some (.top _), h => exact ⟨(f.unflushed_openAppend).trans h.1, f.isSome_disk_openAppend⟩
  | some (.transfer _ t), ⟨h, _⟩ =>
    exact ⟨⟨f.contents_openAppend.trans h.contents, h.content, h.error⟩, f.isSome_disk_openAppend⟩

theorem Transfer.Fits.receive {f : AppendFile UInt8} {t : Transfer} (h : t.Fits R f) (ho : f.isOpen)
    (n flushed : Nat) :
    ({ t with received := t.received + n } : Transfer).Fits R
      (f.write ((t.body.drop t.received).take n) flushed) where
  contents := by
    rw [f.contents_write ho, h.contents, List.append_assoc, ← List.take_add]
    rfl
  content := h.content
  error := h.error

/-- A transfer that fits holds a prefix of the resource, unless it is an error reply. -/
theorem Transfer.Fits.prefix {f : AppendFile UInt8} {t : Transfer} (h : t.Fits R f)
    (he : t.isError → t.body.take t.received <+: R) : f.contents <+: R := by
  rw [h.contents]
  cases hb : t.isError with
  | true => simpa [h.error hb] using he hb
  | false =>
    rw [h.content hb, ← List.take_add]
    exact List.take_prefix ..

namespace CurlTask

structure Intact (R : Bytes) (c : CurlTask) : Prop where
  contents : c.tmpFile.contents <+: R
  leaked : ∀ b ∈ c.leaked, b = []
  finalFiles : ∀ f ∈ c.finalFiles, f.disk = R ∧ ∀ b ∈ f.leaked, b = []
  synced : Synced R c.tmpFile c.thread
  started : c.thread.isSome → c.isStarted
  waiting : c.wait = some .resumeBreakPoint → c.thread = none ∧ c.tmpFile.disk?.isSome

/-- The next `n` bytes to be written belong to an error reply, and are not the beginning of
the resource. -/
def WritesError (R : Bytes) (n : Nat) : Option Perform → Prop
  | some (.transfer _ t) => t.isError ∧ ¬ t.body.take (t.received + n) <+: R
  | _ => False

/-- The attempt ends, and bytes stay behind in a stream that is not closed. -/
def LeavesBytes (c : CurlTask) (code : CurlCode) : Option Perform → Prop
  | some (.transfer retryCount t) =>
    next retryCount c.cancel (curlCode t code) ≠ .leave ∧ c.tmpFile.unflushed ≠ []
  | _ => False

/-- The steps after which the file may not be a prefix of the resource, or its size not be
that of the prefix. -/
def Corrupts (R : Bytes) (c : CurlTask) : Event → Prop
  | .receive n _ => WritesError R n c.thread
  | .finish code _ => c.LeavesBytes code c.thread
  | .resume isFailed _ => (!c.isStarted || isFailed) ∧ c.thread.isSome
  | .resumeBreakPoint _ => c.thread.isSome
  | _ => False

def Resumes (R : Bytes) (c : CurlTask) : Option Perform → Prop
  | some (.top _) =>
    c.tmpFile.contents <+: R ∧ c.setFileSize.2 = some c.tmpFile.contents.length
  | _ => True

/-- If the step starts an attempt, the attempt resumes where the file ends. -/
def ResumesAt (R : Bytes) (c : CurlTask) : Event → Prop
  | .attempt _ => c.Resumes R c.thread
  | _ => True

instance (R : Bytes) (n : Nat) : ∀ p, Decidable (WritesError R n p)
  | some (.transfer ..) => inferInstanceAs (Decidable (_ ∧ ¬ _))
  | some (.top _) | none => isFalse id

instance (c : CurlTask) (code : CurlCode) : ∀ p, Decidable (c.LeavesBytes code p)
  | some (.transfer ..) => inferInstanceAs (Decidable (_ ≠ _ ∧ _ ≠ _))
  | some (.top _) | none => isFalse id

instance (R : Bytes) (c : CurlTask) : ∀ e, Decidable (Corrupts R c e)
  | .receive n _ => inferInstanceAs (Decidable (WritesError R n c.thread))
  | .finish code _ => inferInstanceAs (Decidable (c.LeavesBytes code c.thread))
  | .resume .. => inferInstanceAs (Decidable (_ ∧ _))
  | .resumeBreakPoint _ => inferInstanceAs (Decidable (_ = true))
  | .start _ | .pause | .reset | .tryReStart _ | .quitted _ | .attempt _ | .restart _ => isFalse id

instance (R : Bytes) (c : CurlTask) : ∀ p, Decidable (c.Resumes R p)
  | some (.top _) => inferInstanceAs (Decidable (_ ∧ _ = _))
  | some (.transfer ..) | none => isTrue trivial

instance (R : Bytes) (c : CurlTask) : ∀ e, Decidable (ResumesAt R c e)
  | .attempt _ => inferInstanceAs (Decidable (c.Resumes R c.thread))
  | .start _ | .pause | .resume .. | .resumeBreakPoint _ | .reset | .tryReStart _ | .quitted _
  | .receive .. | .finish .. | .restart _ => isTrue trivial

variable {c : CurlTask}

theorem intact_init (R : Bytes) : Intact R {} where
  contents := List.nil_prefix
  leaked := by simp
  finalFiles := by simp
  synced := rfl
  started := by simp
  waiting := by simp

/-! ## The manager's thread -/

/-- `CreateTempFile` leaves an open stream, or fails and changes nothing. -/
theorem createTempFile_eq (c : CurlTask) (fopen : Bool) :
    c.createTempFile fopen = ({ c with tmpFile := c.tmpFile.openAppend }, true) ∨
      c.createTempFile fopen = (c, false) := by
  simp only [createTempFile]
  split
  · left
    rename_i h
    rw [AppendFile.openAppend_of_isOpen _ h]
  · split
    · exact .inl rfl
    · exact .inr rfl

theorem Intact.openAppend (h : Intact R c) : Intact R { c with tmpFile := c.tmpFile.openAppend } where
  contents := by simpa using h.contents
  leaked := h.leaked
  finalFiles := h.finalFiles
  synced := h.synced.openAppend
  started := h.started
  waiting := fun hw => ⟨(h.waiting hw).1, c.tmpFile.isSome_disk_openAppend⟩

theorem Intact.unflushed (h : Intact R c) (hth : c.thread = none) : c.tmpFile.unflushed = [] := by
  simpa only [Synced, hth] using h.synced

/-- A new thread may run `Perform` when none does and the file exists. -/
theorem Intact.httpStart (h : Intact R c) (hth : c.thread = none) (hd : c.tmpFile.disk?.isSome)
    (hw : c.wait ≠ some .resumeBreakPoint) : Intact R { c.httpStart with isStarted := true } where
  contents := h.contents
  leaked := h.leaked
  finalFiles := h.finalFiles
  synced := ⟨h.unflushed hth, hd⟩
  started := fun _ => rfl
  waiting := fun hw' => absurd hw' hw

theorem Intact.start (h : Intact R c) (hth : c.thread = none)
    (hw : c.wait ≠ some .resumeBreakPoint) (fopen : Bool) : Intact R (c.start fopen) := by
  simp only [CurlTask.start]
  obtain he | he := c.createTempFile_eq fopen
  · rw [he]
    exact h.openAppend.httpStart hth c.tmpFile.isSome_disk_openAppend hw
  · rw [he]
    exact h

theorem Intact.waitThreadQuit (h : Intact R c) {wait : Wait} (hwait : wait ≠ .resumeBreakPoint) :
    Intact R (c.waitThreadQuit wait) where
  contents := h.contents
  leaked := h.leaked
  finalFiles := h.finalFiles
  synced := h.synced
  started := h.started
  waiting := fun hw => absurd (Option.some.inj hw) hwait

theorem Intact.resumeBreakPoint (h : Intact R c) (hth : c.thread = none) (fopen : Bool) :
    Intact R (c.resumeBreakPoint fopen) := by
  simp only [CurlTask.resumeBreakPoint]
  obtain he | he := c.createTempFile_eq fopen
  · rw [he]
    have hd := c.tmpFile.isSome_disk_openAppend
    rw [if_pos ⟨rfl, hd⟩]
    exact { h.openAppend with waiting := fun _ => ⟨hth, hd⟩ }
  · rw [he]
    exact h

theorem Intact.resume (h : Intact R c) {isFailed : Bool}
    (hth : (!c.isStarted || isFailed) = true → c.thread = none) (fopen : Bool) :
    Intact R (c.resume isFailed fopen) := by
  simp only [CurlTask.resume]
  split
  · rename_i hb
    exact h.resumeBreakPoint (hth hb) fopen
  · exact { h with }

/-- A new `http_task_` finds the file as it was left: the stream of the old one has
nothing to write. -/
theorem Intact.initTask (h : Intact R c) (hth : c.thread = none)
    (hw : c.wait ≠ some .resumeBreakPoint) : Intact R c.initTask where
  contents := c.tmpFile.contents_drop.trans h.contents
  leaked := by
    have hu : c.tmpFile.unflushed = [] := h.unflushed hth
    simp only [CurlTask.initTask]
    split
    · simpa [hu] using h.leaked
    · exact h.leaked
  finalFiles := h.finalFiles
  synced := c.tmpFile.unflushed_drop
  started := by simp [CurlTask.initTask]
  waiting := fun hw' => absurd hw' hw

theorem Intact.quitted (h : Intact R c) (hth : c.thread = none) {wait : Wait}
    (hw : c.wait = some wait) (fopen : Bool) :
    Intact R ({ c with wait := none }.quitted fopen wait) := by
  have h' : Intact R { c with wait := none } := { h with waiting := nofun }
  cases wait with
  | reset => exact { h' with }
  | resumeBreakPoint =>
    have hd : c.tmpFile.disk?.isSome := (h.waiting hw).2
    exact { h'.httpStart hth hd nofun with }
  | tryReStart => exact (h'.initTask hth nofun).start rfl nofun fopen

/-! ## The thread of `Perform` -/

theorem Intact.resumes (h : Intact R c) : c.Resumes R c.thread := by
  have hs := h.synced
  match hth : c.thread with
  | some (.top r) =>
    rw [hth] at hs
    exact ⟨h.contents, c.tmpFile.size_of_clean hs.1 hs.2⟩
  | some (.transfer ..) | none => trivial

theorem Intact.resumesAt (h : Intact R c) (e : Event) : ResumesAt R c e := by
  cases e with
  | attempt reply => exact h.resumes
  | _ => trivial

/-- A request that asks for what comes after the contents is answered with what fits them. -/
theorem request_fits {f : AppendFile UInt8} (h : f.contents <+: R) (reply : Reply) :
    (request R (some f.contents.length) reply).Fits R f := by
  have ht : f.contents = R.take f.contents.length := List.prefix_iff_eq_take.mp h
  cases reply with
  | content => exact ⟨by simpa [request, Transfer.base] using ht, fun _ => rfl, nofun⟩
  | error body =>
    simp only [request]
    split
    · rename_i h0
      exact ⟨by simpa [Transfer.base] using ht, nofun, fun _ => Option.some.inj h0⟩
    · exact ⟨by simpa [Transfer.base] using ht, fun _ => rfl, nofun⟩

theorem Intact.attempt (h : Intact R c) (reply : Reply) : Intact R (c.attempt R reply) := by
  have hr := h.resumes
  simp only [CurlTask.attempt]
  split
  · rename_i r hth
    rw [hth] at hr
    have hs : Synced R c.tmpFile (some (.top r)) := hth ▸ h.synced
    have hf := request_fits (f := c.tmpFile.seekEnd) (by simpa using h.contents) reply
    rw [AppendFile.contents_seekEnd, ← hr.2] at hf
    exact
      { contents := by simpa [setFileSize] using h.contents
        leaked := h.leaked
        finalFiles := h.finalFiles
        synced := ⟨hf, by simpa [setFileSize] using hs.2⟩
        started := fun _ => h.started (by rw [hth]; rfl)
        waiting := fun hw => absurd (h.waiting hw).1 (by rw [hth]; nofun) }
  · exact h

theorem writeFileData_of_isOpen (h : c.tmpFile.isOpen) (data : Bytes) (flushed : Nat) :
    c.writeFileData data flushed = ({ c with tmpFile := c.tmpFile.write data flushed }, true) :=
  if_pos h

theorem writeFileData_of_not_isOpen (h : ¬ c.tmpFile.isOpen) (data : Bytes) (flushed : Nat) :
    c.writeFileData data flushed = (c, false) :=
  if_neg h

theorem Intact.receive (h : Intact R c) {n flushed : Nat} (hc : ¬ Corrupts R c (.receive n flushed)) :
    Intact R (c.receive n flushed) := by
  simp only [CurlTask.receive]
  split
  · rename_i r t hth
    obtain ⟨hf, hd⟩ : Synced R c.tmpFile (some (.transfer r t)) := hth ▸ h.synced
    have hw : c.wait ≠ some .resumeBreakPoint := fun hw => by simp [(h.waiting hw).1] at hth
    have hst : c.isStarted := h.started (by rw [hth]; rfl)
    split
    · exact h
    · by_cases ho : c.tmpFile.isOpen
      · simp only [Corrupts, WritesError, hth, not_and, not_not] at hc
        have hf' := hf.receive ho n flushed
        rw [writeFileData_of_isOpen ho]
        exact
          { h with
            contents := hf'.prefix hc
            synced := ⟨hf', by simpa using hd⟩
            started := fun _ => hst
            waiting := fun hw' => absurd hw' hw }
      · rw [writeFileData_of_not_isOpen ho]
        exact
          { h with
            synced := ⟨⟨hf.contents, hf.content, hf.error⟩, hd⟩
            started := fun _ => hst
            waiting := fun hw' => absurd hw' hw }
  · exact h

/-- `CURLE_OK` means that the whole body has been written. -/
theorem received_of_curlCode {t : Transfer} {code : CurlCode} (h : curlCode t code = .ok) :
    t.body.length ≤ t.received := by
  simp only [curlCode] at h
  split at h
  · cases h
  · split at h
    · cases h
    · rename_i hn
      exact Nat.not_lt.mp fun hlt => hn ⟨h, hlt⟩

theorem contents_of_ok {t : Transfer} {code : CurlCode} (hf : t.Fits R c.tmpFile)
    (h : curlCode t code = .ok) (he : t.isError = false) : c.tmpFile.contents = R := by
  rw [hf.contents, List.take_of_length_le (received_of_curlCode h), hf.content he,
    List.take_append_drop]

/-- A successful transfer closes the file, and renames it if it is the resource. -/
theorem Intact.taskUpdate (h : Intact R c) (hth : c.thread = none) {code : CurlCode} {isError : Bool}
    (hw : c.wait ≠ some .resumeBreakPoint)
    (hR : code = .ok → isError = false → c.tmpFile.contents = R) (renamed : Bool) :
    Intact R (c.taskUpdate code isError renamed) := by
  simp only [CurlTask.taskUpdate, renameTempFile]
  split
  · exact h
  · rename_i hok
    split
    · exact h
    · rename_i he
      split
      · rename_i disk hd
        have hdisk : c.tmpFile.disk? = some c.tmpFile.contents :=
          c.tmpFile.disk_of_clean (h.unflushed hth) (by rw [hd]; rfl)
        have hfinal : disk = R := by
          rw [← hR (not_not.mp hok) (by simpa using he)]
          exact Option.some.inj (hd.symm.trans hdisk)
        split
        · exact
            { contents := List.nil_prefix
              leaked := by simp
              finalFiles := by
                simpa [hfinal] using ⟨h.leaked, h.finalFiles⟩
              synced := by simp [Synced, hth, AppendFile.unflushed]
              started := h.started
              waiting := fun hw' => absurd hw' hw }
        · exact h
      · exact h

theorem Intact.finish (h : Intact R c) {code : CurlCode} {renamed : Bool}
    (hc : ¬ Corrupts R c (.finish code renamed)) : Intact R (c.finish code renamed) := by
  simp only [CurlTask.finish]
  split
  · rename_i r t hth
    obtain ⟨hf, hd⟩ : Synced R c.tmpFile (some (.transfer r t)) := hth ▸ h.synced
    have hw : c.wait ≠ some .resumeBreakPoint := fun hw => by simp [(h.waiting hw).1] at hth
    simp only [Corrupts, LeavesBytes, hth, not_and, not_not] at hc
    split
    · have hclosed : Intact R { c.closeFile with thread := none } :=
        { contents := by simpa [closeFile] using h.contents
          leaked := h.leaked
          finalFiles := h.finalFiles
          synced := c.tmpFile.unflushed_close
          started := fun hs => absurd hs (by simp)
          waiting := fun hw' => absurd hw' hw }
      refine hclosed.taskUpdate rfl hw (fun hok he => ?_) renamed
      exact c.tmpFile.contents_close.trans (contents_of_ok hf hok he)
    · rename_i hn
      exact
        { h with
          synced := hc (by simp [hn])
          started := fun hs => absurd hs (by simp)
          waiting := fun hw' => absurd hw' hw }
    · rename_i hn
      exact
        { h with
          synced := ⟨hc (by simp [hn]), hd⟩
          started := fun _ => h.started (by rw [hth]; rfl)
          waiting := fun hw' => absurd hw' hw }
  · exact h

/-- The streams that are left have nothing to write, so the files stay as they are. -/
theorem flushLeaked_close (hl : ∀ b ∈ c.leaked, b = []) :
    flushLeaked c.leaked c.tmpFile.close = c.tmpFile.close := by
  have hflat : c.leaked.flatten = [] := List.flatten_eq_nil_iff.mpr hl
  cases c.tmpFile <;> simp [flushLeaked, AppendFile.close, hflat]

theorem Intact.restart (h : Intact R c) (flushed : Bool) : Intact R (c.restart flushed) := by
  simp only [CurlTask.restart]
  split
  · rw [flushLeaked_close h.leaked]
    exact
      { contents := by simpa using h.contents
        leaked := by simp
        finalFiles := by
          intro f' hf'
          obtain ⟨f, hf, rfl⟩ := List.mem_map.mp hf'
          obtain ⟨hd, hl⟩ := h.finalFiles f hf
          simp [hd, List.flatten_eq_nil_iff.mpr hl]
        synced := c.tmpFile.unflushed_close
        started := nofun
        waiting := nofun }
  · exact
      { contents := c.tmpFile.contents_drop.trans h.contents
        leaked := by simp
        finalFiles := by
          intro f' hf'
          obtain ⟨f, hf, rfl⟩ := List.mem_map.mp hf'
          simp [(h.finalFiles f hf).1]
        synced := c.tmpFile.unflushed_drop
        started := nofun
        waiting := nofun }

/-! ## Runs -/

theorem Intact.manage (h : Intact R c) {f : CurlTask → CurlTask}
    (hf : c.wait = none → Intact R (f c)) : Intact R (c.manage f) := by
  simp only [CurlTask.manage]
  split
  · exact h
  · rename_i hw
    exact hf (by simpa using hw)

theorem step_intact (c : CurlTask) (e : Event) (h : Intact R c) (hc : ¬ Corrupts R c e) :
    Intact R (step R c e) := by
  cases e with
  | start fopen =>
    simp only [step]
    refine h.manage fun hw => ?_
    split
    · exact h
    · rename_i hst
      have hth : c.thread = none := by
        by_contra hth
        exact hst (h.started (Option.isSome_iff_ne_none.mpr hth))
      exact h.start hth (by simp [hw]) fopen
  | pause => exact h
  | resume isFailed fopen =>
    simp only [step]
    refine h.manage fun _ => h.resume (fun hb => ?_) fopen
    simpa using fun hth => hc ⟨hb, hth⟩
  | resumeBreakPoint fopen =>
    simp only [step]
    exact h.manage fun _ => h.resumeBreakPoint (by simpa [Corrupts] using hc) fopen
  | reset =>
    simp only [step]
    exact h.manage fun _ => h.waitThreadQuit nofun
  | tryReStart elapsed =>
    simp only [step]
    refine h.manage fun _ => ?_
    simp only [CurlTask.tryReStart]
    split
    · exact h.waitThreadQuit nofun
    · exact h
  | quitted fopen =>
    simp only [step]
    split
    · rename_i hw hth
      exact h.quitted hth hw fopen
    · exact h
  | attempt reply => exact h.attempt reply
  | receive n flushed => exact h.receive hc
  | finish code renamed => exact h.finish hc
  | restart flushed => exact h.restart flushed

/-- In every run none of whose steps corrupts the file, every attempt starts with a prefix
of the resource and asks for what comes after it, and every file that gets its final name
is the resource. -/
theorem run_resumesAt (R : Bytes) (es : List Event)
    (h : Along (step R) (fun c e => ¬ Corrupts R c e) {} es) :
    Along (step R) (ResumesAt R) {} es ∧ ∀ f ∈ (run (step R) {} es).finalFiles, f.disk = R :=
  ⟨h.imp step_intact (fun _ e hi _ => hi.resumesAt e) (intact_init R),
    fun f hf => ((h.run step_intact (intact_init R)).finalFiles f hf).1⟩

/-- An empty error reply and a retry, a transfer that breaks off with its bytes flushed, a
long pause, and a restart that loses a buffered byte. -/
def bumpyEvents : List Event :=
  [.start true, .attempt (.error []), .finish .ok true, .reset, .quitted true,
    .resume true true, .quitted true, .attempt .content, .receive 2 2, .finish .other true,
    .attempt .content, .receive 2 1, .pause, .resume false true, .tryReStart 300,
    .finish .abortedByCallback true, .quitted true, .attempt .content, .receive 1 0,
    .restart false, .resumeBreakPoint true, .quitted true, .attempt .content, .receive 1 0,
    .finish .ok true]

theorem run_resumesAt_bumpy :
    (run (step [1, 2, 3, 4, 5]) {} bumpyEvents).finalFiles = [⟨[1, 2, 3, 4, 5], []⟩] ∧
      Along (step [1, 2, 3, 4, 5]) (ResumesAt [1, 2, 3, 4, 5]) {} bumpyEvents :=
  ⟨by decide +kernel, (run_resumesAt [1, 2, 3, 4, 5] bumpyEvents (by decide +kernel)).1⟩

def errorReplyEvents : List Event :=
  [.start true, .attempt (.error [9]), .receive 1 0, .finish .ok true, .reset, .quitted true,
    .resume true true, .quitted true, .attempt .content, .receive 2 0, .finish .ok true]

def unflushedEvents : List Event :=
  [.start true, .attempt .content, .receive 2 0, .finish .other true, .attempt .content,
    .receive 3 0, .finish .ok true]

/-- Either run starts an attempt at the wrong place, and both end in a file with a final
name that is not the resource. -/
theorem attempts_corrupt_file :
    (¬ Along (step [1, 2, 3]) (ResumesAt [1, 2, 3]) {} errorReplyEvents ∧
      (run (step [1, 2, 3]) {} errorReplyEvents).finalFiles = [⟨[9, 2, 3], []⟩]) ∧
    (¬ Along (step [1, 2, 3]) (ResumesAt [1, 2, 3]) {} unflushedEvents ∧
      (run (step [1, 2, 3]) {} unflushedEvents).finalFiles = [⟨[1, 2, 1, 2, 3], []⟩]) := by
  decide +kernel

end CurlTask

end Nas.NetCurl

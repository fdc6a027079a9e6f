import EastApi.AsyncTask.FinalStatus

/-! When a failed task is paid back exactly once.  The Suno poller refunds before it saves and
compares nothing, and a realtime fetch and the bulk writes store `FAILURE` without a refund at all.
`paysBack` is what the steps have to meet for the refunds to follow the status, and `Books` is the
invariant. -/

namespace EastApi.AsyncTask

open Run Function

variable {ω : Type} [DecidableEq ω]

/-- The step keeps the refunds in line with the status.  The bulk writes are not taken.  A realtime
answer that is stored leaves a final status alone and brings no failure.  A poller handles only
copies that are not final.  A Suno task has one worker at a time, its upstream sends no reason of
failure with another status than `FAILURE` and no submission time before the cutoff. -/
def paysBack (s : Sys ω) : Action ω → Prop
  | .load w _ _ => s.row.platform = platformSuno → ∀ v, v ≠ w → s.phase v = .idle
  | .video w _ _ => ∀ copy, s.phase w = .holding .poll copy → copy.status.isDone = false
  | .realtime w (some ti) => ∀ copy, s.phase w = .holding .realtime copy →
      s.row.status = copy.status → ti.status ≠ "" →
      if s.row.status.isDone then TaskStatus.ofString ti.status = s.row.status
      else TaskStatus.ofString ti.status ≠ .failure
  | .sunoItem w item => ∀ copy, s.phase w = .holding .poll copy → copy.status.isDone = false ∧
      (item.fails copy = true → item.newStatus copy = .failure) ∧
      (item.submitTime ≤ 0 ∨ legacyTaskCutoff ≤ item.submitTime)
  | .bulkNull _ | .bulkChannel _ => False
  | _ => True

def Phase.task : Phase → Option Task
  | .idle => none
  | .holding _ t | .saving t | .billing _ t _ | .handled t => some t

def Phase.pollCopy : Phase → Option Task
  | .holding .poll t | .handled t | .billing .poll t _ => some t
  | _ => none

def Phase.owesRefund : Phase → Bool
  | .billing _ _ .refund => true
  | _ => false

def Phase.isSaving : Phase → Bool
  | .saving _ => true
  | _ => false

def Phase.calm (p : Phase) : Prop := p.owesRefund = false ∧ p.isSaving = false

def Sys.quiescent (s : Sys ω) : Prop := ∀ w, (s.phase w).owes = false ∧ (s.phase w).isSaving = false

structure Charged (origin t : Task) : Prop where
  quota : t.quota = origin.quota
  funding : t.funding = origin.funding
  platform : t.platform = origin.platform
  recent : isLegacy t = false

theorem Charged.same (h : Charged origin a) (charge : SameCharge a b) :
    Charged origin b where
  quota := charge.quota.trans h.quota
  funding := charge.funding.trans h.funding
  platform := charge.platform.trans h.platform
  recent := by
    have recent := h.recent
    unfold isLegacy at recent ⊢
    rwa [charge.submitTime]

theorem Charged.refundTaskQuota (h : Charged origin t) (quota : origin.quota ≠ 0) :
    refundTaskQuota t = some (origin.funding, origin.quota) := by
  simp [AsyncTask.refundTaskQuota, h.quota, h.funding, quota]

theorem Charged.sunoTask (h : Charged origin t) (item : SunoItem)
    (time : item.submitTime ≤ 0 ∨ legacyTaskCutoff ≤ item.submitTime) :
    Charged origin (sunoTask t item) where
  quota := h.quota
  funding := h.funding
  platform := h.platform
  recent := by
    by_cases zero : item.submitTime = 0
    · simpa [isLegacy, AsyncTask.sunoTask, zero] using h.recent
    · simp only [isLegacy, AsyncTask.sunoTask, zero, ne_eq, not_false_eq_true, ↓reduceIte,
        Bool.and_eq_false_iff, decide_eq_false_iff_not]
      omega

/-- Every copy is charged as the origin was.  A Suno task has one worker at a time, and the copy
that its poller holds has the stored status. -/
structure Copies (origin : Task) (s : Sys ω) : Prop where
  row : Charged origin s.row
  tasks : ∀ w c, (s.phase w).task = some c → Charged origin c
  alone : origin.platform = platformSuno → ∀ v w, s.phase v ≠ .idle → s.phase w ≠ .idle → v = w
  mirror : origin.platform = platformSuno → ∀ w c, (s.phase w).pollCopy = some c →
    c.status = s.row.status

def OthersIdle (origin : Task) (s : Sys ω) (w : ω) : Prop :=
  origin.platform = platformSuno → ∀ v, v ≠ w → s.phase v = .idle

omit [DecidableEq ω] in
theorem Copies.own (h : Copies origin s) (w : ω) (own : (s.phase w).task = some copy) :
    Charged origin copy ∧ OthersIdle origin s w := by
  refine ⟨h.tasks w copy own, fun suno v hv => ?_⟩
  by_contra hne
  exact hv (h.alone suno v w hne fun idle => by rw [idle] at own; contradiction)

theorem Copies.turn {w : ω} (h : Copies origin s) (others : OthersIdle origin s w)
    (phase : t.phase = update s.phase w p) (row : Charged origin t.row)
    (task : ∀ c, p.task = some c → Charged origin c)
    (mirror : origin.platform = platformSuno → ∀ c, p.pollCopy = some c →
      c.status = t.row.status) : Copies origin t := by
  obtain ⟨mine, rest⟩ := eq_update_iff.mp phase
  refine ⟨row, fun v c hc => ?_, fun suno v u hv hu => ?_, fun suno v c hc => ?_⟩
  · by_cases same : v = w
    · rw [same, mine] at hc
      exact task c hc
    · rw [rest v same] at hc
      exact h.tasks v c hc
  · have only : ∀ x, t.phase x ≠ .idle → x = w := by
      intro x hx
      by_contra hne
      exact hx ((rest x hne).trans (others suno x hne))
    rw [only v hv, only u hu]
  · by_cases same : v = w
    · rw [same, mine] at hc
      exact mirror suno c hc
    · rw [rest v same, others suno v same] at hc
      contradiction

/-- The refunds made so far against the stored status.  A Suno poller that is about to save has
already made the refund that its copy asks for. -/
structure Books (origin : Task) (s : Sys ω) : Prop where
  saving : ∀ w c, s.phase w = .saving c → origin.platform = platformSuno ∧
    s.row.status.isDone = false ∧
    s.refunds = if c.status = .failure then [(origin.funding, origin.quota)] else []
  owed : ∀ w, (s.phase w).owesRefund = true → s.row.status = .failure ∧ s.refunds = [] ∧
    ∀ v, (s.phase v).owesRefund = true → v = w
  unpaid : s.row.status ≠ .failure → (∀ w, (s.phase w).isSaving = false) → s.refunds = []
  paid : s.row.status = .failure → (∀ w, (s.phase w).owesRefund = false) →
    s.refunds = [(origin.funding, origin.quota)]

theorem ne_failure_of_open {status : TaskStatus} (h : status.isDone = false) :
    status ≠ .failure := by
  rintro rfl
  contradiction

section turn
variable {origin : Task} {s t : Sys ω} {w : ω} {p : Phase}

theorem Books.alone (phase : t.phase = update s.phase w p)
    (others : ∀ v, v ≠ w → (s.phase v).calm)
    (saving : ∀ c, p = .saving c → origin.platform = platformSuno ∧ t.row.status.isDone = false ∧
      t.refunds = if c.status = .failure then [(origin.funding, origin.quota)] else [])
    (owed : p.owesRefund = true → t.row.status = .failure ∧ t.refunds = [])
    (unpaid : t.row.status ≠ .failure → p.isSaving = false → t.refunds = [])
    (paid : t.row.status = .failure → p.owesRefund = false →
      t.refunds = [(origin.funding, origin.quota)]) : Books origin t := by
  obtain ⟨mine, rest⟩ := eq_update_iff.mp phase
  have only : ∀ v, (t.phase v).owesRefund = true → v = w := by
    intro v hv
    by_contra other
    rw [rest v other, (others v other).1] at hv
    contradiction
  refine ⟨fun v c hv => ?_, fun v hv => ?_, fun hrow hv => unpaid hrow (mine ▸ hv w),
    fun hrow hv => paid hrow (mine ▸ hv w)⟩
  · by_cases same : v = w
    · exact saving c (by rw [← mine, ← same, hv])
    · have calm := (others v same).2
      rw [← rest v same, hv] at calm
      contradiction
  · obtain rfl := only v hv
    obtain ⟨failed, none⟩ := owed (mine ▸ hv)
    exact ⟨failed, none, only⟩

omit [DecidableEq ω] in
theorem OthersIdle.calm (others : OthersIdle origin s w) (suno : origin.platform = platformSuno)
    (v : ω) (hv : v ≠ w) : (s.phase v).calm := by
  rw [others suno v hv]
  exact ⟨rfl, rfl⟩

variable (h : Books origin s)
include h

omit [DecidableEq ω] in
theorem Books.none_owed (status : s.row.status ≠ .failure) (v : ω) :
    (s.phase v).owesRefund = false := by
  by_contra owes
  exact status (h.owed v (by simpa using owes)).1

theorem Books.refund (phase : t.phase = update s.phase w p) (row : t.row = s.row)
    (refunds : t.refunds = s.refunds ++ [(origin.funding, origin.quota)])
    (before : (s.phase w).owesRefund = true) (after : p.calm) : Books origin t := by
  obtain ⟨failed, none, only⟩ := h.owed w before
  refine .alone phase (fun v other => ⟨?_, ?_⟩) (fun c hp => ?_) (fun owes => ?_)
    (fun hrow => absurd (row ▸ failed) hrow) fun _ _ => by rw [refunds, none, List.nil_append]
  · exact Bool.eq_false_iff.mpr fun owes => other (only v owes)
  · cases hv : s.phase v with
    | saving c =>
      -- a save is pending only while the row is not final
      have isOpen := (h.saving v c hv).2.1
      rw [failed] at isOpen
      contradiction
    | _ => rfl
  · rw [hp] at after
    exact absurd after.2 (by simp [Phase.isSaving])
  · rw [after.1] at owes
    contradiction

variable (others : OthersIdle origin s w)
include others

omit [DecidableEq ω] in
theorem Books.not_saving (mine : (s.phase w).isSaving = false) (v : ω) :
    (s.phase v).isSaving = false := by
  cases hv : s.phase v with
  | saving c =>
    by_cases same : v = w
    · rw [← same, hv] at mine
      contradiction
    · rw [others (h.saving v c hv).1 v same] at hv
      contradiction
  | _ => rfl

theorem Books.quiet (phase : t.phase = update s.phase w p) (refunds : t.refunds = s.refunds)
    (status : t.row.status = .failure ↔ s.row.status = .failure) (before : (s.phase w).calm)
    (after : p.calm) : Books origin t := by
  obtain ⟨mine, rest⟩ := eq_update_iff.mp phase
  have owes : ∀ v, (t.phase v).owesRefund = (s.phase v).owesRefund := by
    intro v
    by_cases same : v = w
    · rw [same, mine, after.1, before.1]
    · rw [rest v same]
  have idle := h.not_saving others before.2
  refine ⟨fun v c hv => ?_, fun v hv => ?_, fun hrow _ => ?_, fun hrow hv => ?_⟩
  · have saving : (t.phase v).isSaving = true := by rw [hv]; rfl
    by_cases same : v = w
    · rw [same, mine, after.2] at saving
      contradiction
    · rw [rest v same, idle v] at saving
      contradiction
  · obtain ⟨failed, none, only⟩ := h.owed v (owes v ▸ hv)
    exact ⟨status.2 failed, refunds.trans none, fun u hu => only u (owes u ▸ hu)⟩
  · exact refunds.trans (h.unpaid (fun failed => hrow (status.2 failed)) idle)
  · exact refunds.trans (h.paid (status.1 hrow) fun v => owes v ▸ hv v)

theorem Books.fail (phase : t.phase = update s.phase w p) (refunds : t.refunds = s.refunds)
    (isOpen : s.row.status ≠ .failure) (failed : t.row.status = .failure)
    (before : (s.phase w).isSaving = false) (owes : p.owesRefund = true) : Books origin t := by
  have idle := h.not_saving others before
  have none : t.refunds = [] := refunds.trans (h.unpaid isOpen idle)
  refine .alone phase (fun v _ => ⟨h.none_owed isOpen v, idle v⟩) (fun c hp => ?_)
    (fun _ => ⟨failed, none⟩) (fun hrow => absurd failed hrow) fun _ free => ?_
  · rw [hp] at owes
    contradiction
  · rw [owes] at free
    contradiction

theorem Books.sunoRead (suno : origin.platform = platformSuno)
    (phase : t.phase = update s.phase w (.saving c)) (row : t.row = s.row)
    (isOpen : s.row.status.isDone = false) (before : (s.phase w).isSaving = false)
    (refunds : t.refunds = s.refunds ++
      if c.status = .failure then [(origin.funding, origin.quota)] else []) : Books origin t := by
  have notFailed := ne_failure_of_open isOpen
  have none : s.refunds = [] := h.unpaid notFailed (h.not_saving others before)
  refine .alone phase (others.calm suno) (fun d hp => ?_) (fun owes => by contradiction)
    (fun _ saved => by contradiction) fun hrow => absurd (row ▸ hrow) notFailed
  cases hp
  exact ⟨suno, row ▸ isOpen, by rw [refunds, none, List.nil_append]⟩

theorem Books.sunoSave (before : s.phase w = .saving c)
    (phase : t.phase = update s.phase w (.handled c)) (row : t.row = c)
    (refunds : t.refunds = s.refunds) : Books origin t := by
  obtain ⟨suno, -, made⟩ := h.saving w c before
  rw [← row, ← refunds] at made
  exact .alone phase (others.calm suno) (fun d hp => by contradiction)
    (fun owes => by contradiction) (fun hrow _ => by rw [made, if_neg hrow])
    fun hrow _ => by rw [made, if_pos hrow]

end turn

structure PaidBack (origin : Task) (s : Sys ω) : Prop where
  copies : Copies origin s
  books : Books origin s

section step
variable {origin : Task} {s t : Sys ω} {w : ω} {p : Phase}

/-- A step of a worker that has nothing to save or refund before it and after it, and that does not
change whether the task has failed. -/
theorem PaidBack.quiet (h : PaidBack origin s) (others : OthersIdle origin s w)
    (phase : t.phase = update s.phase w p) (refunds : t.refunds = s.refunds)
    (row : Charged origin t.row) (status : t.row.status = .failure ↔ s.row.status = .failure)
    (task : ∀ c, p.task = some c → Charged origin c)
    (mirror : origin.platform = platformSuno → ∀ c, p.pollCopy = some c → c.status = t.row.status)
    (before : (s.phase w).calm) (after : p.calm) : PaidBack origin t :=
  ⟨h.copies.turn others phase row task mirror,
    h.books.quiet others phase refunds status before after⟩

theorem PaidBack.drop (h : PaidBack origin s) (others : OthersIdle origin s w)
    (before : (s.phase w).calm) : PaidBack origin (s.setPhase w .idle) :=
  h.quiet others rfl rfl h.copies.row .rfl (by simp [Phase.task])
    (by simp [Phase.pollCopy]) before ⟨rfl, rfl⟩

variable {loader : Loader}

omit [DecidableEq ω] in
theorem PaidBack.held (h : PaidBack origin s) (hold : s.phase w = .holding loader copy) :
    Charged origin copy ∧ OthersIdle origin s w ∧ (s.phase w).calm := by
  obtain ⟨charged, others⟩ := h.copies.own w (by rw [hold]; rfl)
  exact ⟨charged, others, by rw [hold]; exact ⟨rfl, rfl⟩⟩

omit [DecidableEq ω] in
theorem not_suno_of_isVideo (video : isVideo copy = true) (h : Charged origin copy) :
    origin.platform ≠ platformSuno := by
  simp only [isVideo, Bool.and_eq_true, decide_eq_true_eq] at video
  rw [← h.platform]
  exact video.1.2

theorem isSaving_afterWrite (loader : Loader) (task : Task) (billing : Option BillingCall) :
    (Phase.afterWrite loader task billing).isSaving = false := by
  cases billing with
  | none => cases loader <;> rfl
  | some call => rfl

variable {billing : Option BillingCall}

theorem task_afterWrite (h : (Phase.afterWrite loader task billing).task = some c) : c = task := by
  cases billing with
  | none => cases loader <;> cases h; rfl
  | some call => cases h; rfl

theorem pollCopy_afterWrite (h : (Phase.afterWrite loader task billing).pollCopy = some c) :
    loader = .poll ∧ c = task := by
  cases billing <;> cases loader <;> cases h <;> exact ⟨rfl, rfl⟩

theorem owesRefund_afterWrite (loader : Loader) (task : Task) (billing : Option BillingCall) :
    (Phase.afterWrite loader task billing).owesRefund = decide (billing = some .refund) := by
  cases billing with
  | none => cases loader <;> rfl
  | some call => cases call <;> rfl

/-- A write of the video poller or of the sweep that won: the row gets the copy, and the worker owes
the refund exactly if the copy has failed. -/
theorem PaidBack.won {new : Task} (h : PaidBack origin s) (others : OthersIdle origin s w)
    (before : (s.phase w).calm) (isOpen : s.row.status.isDone = false)
    (charged : Charged origin new) (mirror : origin.platform = platformSuno → loader ≠ .poll)
    (billed : billing = some .refund ↔ new.status = .failure)
    (phase : t.phase = update s.phase w (.afterWrite loader new billing))
    (row : t.row = new) (refunds : t.refunds = s.refunds) : PaidBack origin t := by
  have isOpen := ne_failure_of_open isOpen
  have copies : Copies origin t := by
    refine h.copies.turn others phase (row ▸ charged) (fun c hc => ?_) fun suno c hc => ?_
    · rw [task_afterWrite hc]
      exact charged
    · exact absurd (pollCopy_afterWrite hc).1 (mirror suno)
  by_cases failed : new.status = .failure
  · refine ⟨copies, h.books.fail others phase refunds isOpen (row ▸ failed) before.2 ?_⟩
    rw [owesRefund_afterWrite, decide_eq_true_eq]
    exact billed.2 failed
  · refine ⟨copies, h.books.quiet others phase refunds ?_ before ⟨?_, ?_⟩⟩
    · rw [row]
      exact iff_of_false failed isOpen
    · rw [owesRefund_afterWrite, decide_eq_false_iff_not]
      exact fun hb => failed (billed.1 hb)
    · exact isSaving_afterWrite loader new billing

theorem PaidBack.step {a : Action ω} (quota : origin.quota ≠ 0) (h : PaidBack origin s)
    (sweeps : SweepsOpen s) (ok : paysBack s a) (hs : step cfg s a = some t) :
    PaidBack origin t := by
  cases step_effect cfg hs with
  | @load w loader now idle sel =>
    have others : OthersIdle origin s w := fun suno => ok (h.copies.row.platform.trans suno)
    refine h.quiet others rfl rfl h.copies.row .rfl (fun c hc => ?_) (fun _ c hc => ?_)
      (by rw [idle]; exact ⟨rfl, rfl⟩) ⟨rfl, rfl⟩
    · cases hc
      exact h.copies.row
    · cases loader <;> cases hc
      rfl
  | @videoStop w body now copy task hold video read =>
    obtain ⟨charged, others, calm⟩ := h.held hold
    refine h.quiet others rfl rfl h.copies.row .rfl (fun c hc => ?_)
      (fun suno => absurd suno (not_suno_of_isVideo video charged)) calm ⟨rfl, rfl⟩
    cases hc
    exact charged.same (readVideo_stop cfg.serverAddress read)
  | @video w body now copy new billing hold video read =>
    obtain ⟨charged, others, calm⟩ := h.held hold
    have notSuno := not_suno_of_isVideo video charged
    obtain ⟨charge, billed⟩ := readVideo_write cfg.serverAddress read
    obtain lost | ⟨same, written⟩ := writeVideo_open s.row (ok copy hold) billed
    · rw [lost]
      refine h.quiet others rfl rfl h.copies.row .rfl (fun c hc => ?_)
        (fun suno => absurd suno notSuno) calm ⟨rfl, rfl⟩
      cases hc
      exact charged.same charge
    · rw [written]
      refine h.won others calm (same ▸ ok copy hold) (charged.same charge)
        (fun suno => absurd suno notSuno) ?_ rfl rfl rfl
      rw [charged.quota] at billed
      rcases billed with ⟨isOpen, none⟩ | ⟨success, settle⟩ | ⟨failed, refund⟩
      · simp [none, ne_failure_of_open isOpen]
      · simp [success, settle]
      · simp [failed, refund, quota]
  | @sweepWon w now copy hold same =>
    obtain ⟨charged, others, calm⟩ := h.held hold
    have new : Charged origin (sweepTask cfg.timeoutMinutes copy now) :=
      charged.same ⟨rfl, rfl, rfl, rfl⟩
    refine h.won others calm (same ▸ sweeps w copy hold) new (fun _ => by simp) ?_ rfl rfl rfl
    simp [sweepBilling, charged.recent, charged.quota, quota, sweepTask]
  | sweepLost hold | realtimeStop hold | realtimeLost hold =>
    obtain ⟨-, others, calm⟩ := h.held hold
    exact h.drop others calm
  | @realtimeWon w ti copy hold same =>
    obtain ⟨charged, others, calm⟩ := h.held hold
    refine h.quiet others rfl rfl
      (charged.same (realtimeTask_charge cfg.serverAddress copy ti)) ?_ (by simp [Phase.task])
      (by simp [Phase.pollCopy]) calm ⟨rfl, rfl⟩
    rw [Sys.setPhase_row, realtimeTask_status]
    by_cases empty : ti.status = ""
    · simp [empty, same]
    · have answer := ok copy hold same empty
      rw [if_pos empty]
      split at answer
      · rw [answer]
      next isOpen => exact iff_of_false answer (ne_failure_of_open (by simpa using isOpen))
  | @sunoSkip w item copy hold =>
    obtain ⟨charged, others, calm⟩ := h.held hold
    refine h.quiet others rfl rfl h.copies.row .rfl (fun c hc => ?_) (fun suno c hc => ?_) calm
      ⟨rfl, rfl⟩
    · cases hc
      exact charged
    · exact h.copies.mirror suno w c (by rw [hold]; exact hc)
  | @sunoItem w item copy hold suno =>
    obtain ⟨isOpen, failing, time⟩ := ok copy hold
    obtain ⟨charged, others, calm⟩ := h.held hold
    have platform : origin.platform = platformSuno := by
      simp only [isSuno, Bool.and_eq_true, decide_eq_true_eq] at suno
      rw [← charged.platform, suno.2]
    have stored : copy.status = s.row.status := h.copies.mirror platform w copy (by rw [hold]; rfl)
    have new := charged.sunoTask item time
    constructor
    · refine h.copies.turn others rfl h.copies.row (fun c hc => ?_) (by simp [Phase.pollCopy])
      cases hc
      exact new
    · refine h.books.sunoRead others platform rfl rfl (stored ▸ isOpen) calm.2 ?_
      have fails : item.fails copy = true ↔ (sunoTask copy item).status = .failure := by
        refine ⟨failing, fun failed => ?_⟩
        have failed : item.newStatus copy = .failure := failed
        simp [SunoItem.fails, failed]
      by_cases failed : item.fails copy = true
      · simp [Sys.refunds, failed, fails.1 failed, refundOf, new.refundTaskQuota quota]
      · have status : (sunoTask copy item).status ≠ .failure := fun hf => failed (fails.2 hf)
        simp [Sys.refunds, failed, status]
  | @sunoSave w task save =>
    obtain ⟨charged, others⟩ := h.copies.own w (by rw [save]; rfl)
    refine ⟨h.copies.turn others rfl charged (fun c hc => ?_) fun _ c hc => ?_,
      h.books.sunoSave others save rfl rfl rfl⟩
    · cases hc
      exact charged
    · cases hc
      rfl
  | bulkNull | bulkChannel => exact ok.elim
  | @bill w loader task call owed =>
    obtain ⟨charged, others⟩ := h.copies.own w (by rw [owed]; rfl)
    have after : (Phase.afterWrite loader task none).calm :=
      ⟨by rw [owesRefund_afterWrite]; rfl, isSaving_afterWrite loader task none⟩
    constructor
    · refine h.copies.turn others rfl h.copies.row (fun c hc => ?_) fun suno c hc => ?_
      · rw [task_afterWrite hc]
        exact charged
      · obtain ⟨rfl, rfl⟩ := pollCopy_afterWrite hc
        exact h.copies.mirror suno w c (by rw [owed]; rfl)
    · cases call with
      | refund =>
        refine h.books.refund rfl rfl ?_ (by rw [owed]; rfl) after
        simp [Sys.refunds, refundOf, charged.refundTaskQuota quota]
      | settle =>
        refine h.books.quiet others rfl ?_ .rfl (by rw [owed]; exact ⟨rfl, rfl⟩) after
        simp [Sys.refunds, refundOf]
  | @again w task done =>
    obtain ⟨charged, others⟩ := h.copies.own w (by rw [done]; rfl)
    refine h.quiet others rfl rfl h.copies.row .rfl (fun c hc => ?_) (fun suno c hc => ?_)
      (by rw [done]; exact ⟨rfl, rfl⟩) ⟨rfl, rfl⟩
    · cases hc
      exact charged
    · exact h.copies.mirror suno w c (by rw [done]; exact hc)
  | @release w keeps =>
    rcases keeps with ⟨loader, task, hold⟩ | ⟨task, done⟩
    · obtain ⟨-, others, calm⟩ := h.held hold
      exact h.drop others calm
    · exact h.drop (h.copies.own w (by rw [done]; rfl)).2 (by rw [done]; exact ⟨rfl, rfl⟩)

end step

omit [DecidableEq ω] in
theorem PaidBack.start (recent : isLegacy origin = false) (isOpen : origin.status.isDone = false) :
    PaidBack origin (Sys.start (ω := ω) origin) where
  copies := by
    refine ⟨⟨rfl, rfl, rfl, recent⟩, fun w c hc => ?_, fun _ v w hv => ?_, fun _ w c hc => ?_⟩
    · contradiction
    · exact absurd rfl hv
    · contradiction
  books := by
    refine ⟨fun w c hc => ?_, fun w hw => ?_, fun _ _ => rfl, fun failed => ?_⟩
    · contradiction
    · contradiction
    · exact absurd failed (ne_failure_of_open isOpen)

/-- A task whose channel was deleted is failed by the poller and keeps its quota. -/
theorem missing_channel_not_refunded (cfg : Config) (row : Task) (w : ω)
    (selected : unfinished row = true) (video : isVideo row = true) :
    ∃ t, Free (step cfg) (Sys.start row) [.load w .poll 0, .bulkChannel w] t ∧ t.quiescent ∧
      t.row.status = .failure ∧ t.refunds = [] := by
  have load : step cfg (Sys.start row) (.load w .poll 0) =
      some ((Sys.start row).setPhase w (.holding .poll row)) := by
    simp [step, Sys.start, Loader.selects, selected]
  have bulk : step cfg ((Sys.start row).setPhase w (.holding .poll row)) (.bulkChannel w) =
      some ({ Sys.start row with row := bulkChannelTask row row.channelId }.setPhase w .idle) := by
    simp [step, Sys.start, video, Sys.setPhase]
  refine ⟨_, .cons trivial load (.cons trivial bulk (.nil _)), fun v => ?_, rfl, rfl⟩
  by_cases same : v = w
  · rw [same, Sys.setPhase_same]
    exact ⟨rfl, rfl⟩
  · rw [Sys.setPhase_of_ne _ _ same]
    exact ⟨rfl, rfl⟩

end EastApi.AsyncTask

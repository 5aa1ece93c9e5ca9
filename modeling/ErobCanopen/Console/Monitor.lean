/-
  ErobCanopen.Console.Monitor
  ───────────────────────────
  **`monitor_motion`: WHICH POLLS PRINT A `[Status]` LINE.**

  Each pass of `monitor_motion`'s `while (running)` loop reads the status word `0x6041` and,
  if that succeeded, the actual position `0x6064`.  When both succeed and the sample differs
  from the function's `static` pair `(last_status, last_position)`, it prints a `[Status]`
  line (`Target reached!` appended when `status_word & 0x0400`) and the statics take the
  sample.  The statics start at `(0, 0)` and outlive the call.

  Nothing in the loop clears `running` (only `signal_handler` does), so a run is modelled by
  its number of passes.  `PollRun` lists every way one pass can go; from it, by induction on
  the passes:

    * `monitor_motion_reports` — the lines a run prints are its successful samples with
      repeats removed (`List.destutter'`), counted from the statics it started with;
    * `monitor_motion_statics` — the statics it leaves are its last successful sample;
    * `monitor_motion_prints_changes` — both, and `Target reached!` is bit 10.
-/
import ErobCanopen.Drive.Move
import Mathlib.Data.List.Destutter

namespace ErobCanopen

/-! ## §1. The loop. -/

/-- One sample of the monitor: a status word and an actual position, both read. -/
structure Sample where
  status_word : BitVec 32
  actual_position : BitVec 32
  deriving DecidableEq, Repr

/-- `static uint32_t last_status = 0;  static uint32_t last_position = 0;` -/
def Sample.initial : Sample := ⟨0, 0⟩

/-- The `[Status]` line printed for a sample, under the target position it reads. -/
def statusLine (current_target_position : BitVec 32) (s : Sample) : Report :=
  .status (s.status_word.setWidth 16) s.actual_position current_target_position
    (s.status_word &&& 0x0400 != 0)

/-- One pass of the loop, from the statics `last` to the statics it leaves. -/
def monitor_poll (current_target_position : BitVec 32) (last : Sample) : Prog Sample := do
  match ← read_sdo 0x6041 0 with
  | none => pure last
  | some status_word =>
    match ← read_sdo 0x6064 0 with
    | none => pure last
    | some actual_position =>
      if status_word ≠ last.status_word ∨ actual_position ≠ last.actual_position then do
        report (statusLine current_target_position ⟨status_word, actual_position⟩)
        pure ⟨status_word, actual_position⟩
      else pure last

/-- `monitor_motion(sock)`, run for `polls` passes of `while (running)`; the value is the
    statics it leaves. -/
def monitor_motion (current_target_position : BitVec 32) : (polls : Nat) → Sample → Prog Sample
  | 0, last => pure last
  | polls + 1, last => do
    let last ← monitor_poll current_target_position last
    monitor_motion current_target_position polls last

/-! ## §2. What a trace shows: its lines and its samples. -/

/-- The line a request prints, if it is a print. -/
def Op.printed : Op → Option Report
  | .report r => some r
  | _ => none

/-- The lines a trace printed, in order. -/
def reports (t : List Exchange) : List Report := (t.map Prod.fst).filterMap Op.printed

@[simp] theorem reports_nil : reports [] = [] := rfl

@[simp] theorem reports_append (t t' : List Exchange) :
    reports (t ++ t') = reports t ++ reports t' := by
  simp [reports]

/-- The samples a trace took: each successful status-word read directly followed by a
    successful position read.  `pending` is the status word of the exchange just before, if
    that was a successful status-word read. -/
def samplesFrom : Option (BitVec 32) → List Exchange → List Sample
  | _, [] => []
  | pending, (op, a) :: t =>
    match pending, a with
    | some status_word, some actual_position =>
      if op = posRead then ⟨status_word, actual_position⟩ :: samplesFrom none t
      else samplesFrom (if op = statusRead then a else none) t
    | _, _ => samplesFrom (if op = statusRead then a else none) t

/-- The samples of a whole trace. -/
def samples (t : List Exchange) : List Sample := samplesFrom none t

theorem samples_statusRead_none (t : List Exchange) :
    samples ((statusRead, none) :: t) = samples t := rfl

theorem samples_posRead_none (sw : BitVec 32) (t : List Exchange) :
    samples ((statusRead, some sw) :: (posRead, none) :: t) = samples t := rfl

theorem samples_sample (s : Sample) (t : List Exchange) :
    samples ((statusRead, some s.status_word) :: (posRead, some s.actual_position) :: t) =
      s :: samples t := rfl

theorem samples_report (r : Report) (a : Answer) (t : List Exchange) :
    samples ((.report r, a) :: t) = samples t := by
  cases a <;> rfl

/-! ## §3. One pass. -/

/-- Every way one pass can go, from the statics `last`: its statics after, and its
    exchanges. -/
inductive PollRun (tp : BitVec 32) (last : Sample) : Sample → List Exchange → Prop where
  | status_failed : PollRun tp last last [(statusRead, none)]
  | position_failed (sw : BitVec 32) :
      PollRun tp last last [(statusRead, some sw), (posRead, none)]
  | unchanged :
      PollRun tp last last
        [(statusRead, some last.status_word), (posRead, some last.actual_position)]
  | changed (s : Sample) (ack : Answer) : s ≠ last →
      PollRun tp last s [(statusRead, some s.status_word), (posRead, some s.actual_position),
        (.report (statusLine tp s), ack)]

theorem monitor_poll_path {tp : BitVec 32} {last s : Sample} {t : List Exchange}
    (hp : Prog.Path (monitor_poll tp last) s t) : PollRun tp last s t := by
  simp only [monitor_poll, read_sdo, Prog.call_bind, Prog.pure_bind] at hp
  obtain ⟨r, t', rfl, h₁⟩ := hp.call_inv
  cases r with
  | none =>
    obtain ⟨rfl, rfl⟩ := Prog.Path.pure_inv h₁
    exact .status_failed
  | some sw =>
    obtain ⟨r', t'', rfl, h₂⟩ := h₁.call_inv
    cases r' with
    | none =>
      obtain ⟨rfl, rfl⟩ := Prog.Path.pure_inv h₂
      exact .position_failed sw
    | some pos =>
      dsimp only at h₂
      split at h₂
      · simp only [report, Prog.call_bind, Prog.pure_bind] at h₂
        obtain ⟨ack, t₃, rfl, h₃⟩ := h₂.call_inv
        obtain ⟨rfl, rfl⟩ := Prog.Path.pure_inv h₃
        refine .changed ⟨sw, pos⟩ ack ?_
        rintro rfl
        simp_all
      · rename_i hsame
        obtain ⟨rfl, rfl⟩ := Prog.Path.pure_inv h₂
        obtain ⟨rfl, rfl⟩ : sw = s.status_word ∧ pos = s.actual_position := by
          simpa only [not_or, not_not] using hsame
        exact .unchanged

/-- What a pass prints and samples, in front of whatever follows it. -/
theorem PollRun.observe {tp : BitVec 32} {last s : Sample} {t : List Exchange}
    (h : PollRun tp last s t) (rest : List Exchange) :
    (reports (t ++ rest) = reports rest ∧ samples (t ++ rest) = samples rest ∧ s = last) ∨
      (reports (t ++ rest) = reports rest ∧ samples (t ++ rest) = last :: samples rest ∧
        s = last) ∨
      (reports (t ++ rest) = statusLine tp s :: reports rest ∧
        samples (t ++ rest) = s :: samples rest ∧ s ≠ last) := by
  cases h with
  | status_failed => exact .inl ⟨rfl, samples_statusRead_none rest, rfl⟩
  | position_failed sw => exact .inl ⟨rfl, samples_posRead_none sw rest, rfl⟩
  | unchanged => exact .inr (.inl ⟨rfl, samples_sample last rest, rfl⟩)
  | changed s ack hne =>
    refine .inr (.inr ⟨rfl, ?_, hne⟩)
    rw [List.cons_append, List.cons_append, List.cons_append, List.nil_append, samples_sample,
      samples_report]

/-! ## §4. The whole run. -/

/-- Destuttering from `a` keeps `a` in front. -/
theorem destutter'_eq_cons_tail {α : Type} (R : α → α → Prop) [DecidableRel R] (a : α)
    (l : List α) : l.destutter' R a = a :: (l.destutter' R a).tail := by
  induction l generalizing a with
  | nil => rfl
  | cons b l ih =>
    by_cases h : R a b
    · rw [List.destutter'_cons_pos _ h, List.tail_cons]
    · rw [List.destutter'_cons_neg _ h]
      exact ih a

/-- The lines a run of `monitor_motion` prints are the samples it took, each printed when it
    differs from the one before, the first compared with the statics it started with. -/
theorem monitor_motion_reports {tp : BitVec 32} :
    ∀ {polls : Nat} {last last' : Sample} {t : List Exchange},
      Prog.Path (monitor_motion tp polls last) last' t →
      reports t = ((samples t).destutter' (· ≠ ·) last).tail.map (statusLine tp)
  | 0, last, last', t, hp => by
    obtain ⟨rfl, rfl⟩ := Prog.Path.pure_inv hp
    rfl
  | polls + 1, last, last', t, hp => by
    obtain ⟨s, t₁, t₂, rfl, h₁, h₂⟩ := Prog.Path.bind_inv hp
    have ih := monitor_motion_reports h₂
    rcases (monitor_poll_path h₁).observe t₂ with
      ⟨hr, hs, rfl⟩ | ⟨hr, hs, rfl⟩ | ⟨hr, hs, hne⟩
    · rw [hr, hs, ih]
    · rw [hr, hs, List.destutter'_cons_neg _ (not_not.mpr rfl), ih]
    · rw [hr, hs, List.destutter'_cons_pos _ (Ne.symm hne), List.tail_cons, ih,
        destutter'_eq_cons_tail _ s, List.map_cons, List.tail_cons]

/-- The statics a run leaves are the last sample it took, or those it started with. -/
theorem monitor_motion_statics {tp : BitVec 32} :
    ∀ {polls : Nat} {last last' : Sample} {t : List Exchange},
      Prog.Path (monitor_motion tp polls last) last' t → last' = (samples t).getLastD last
  | 0, last, last', t, hp => by
    obtain ⟨rfl, rfl⟩ := Prog.Path.pure_inv hp
    rfl
  | polls + 1, last, last', t, hp => by
    obtain ⟨s, t₁, t₂, rfl, h₁, h₂⟩ := Prog.Path.bind_inv hp
    have ih := monitor_motion_statics h₂
    rcases (monitor_poll_path h₁).observe t₂ with
      ⟨-, hs, rfl⟩ | ⟨-, hs, rfl⟩ | ⟨-, hs, -⟩
    · rw [hs, ih]
    · rw [hs, List.getLastD_cons, ih]
    · rw [hs, List.getLastD_cons, ih]

/-! ## §5. Which polls print. -/

theorem getLsbD_0x400 (i : Nat) : (0x0400 : BitVec 32).getLsbD i = decide (10 = i) := by
  rw [BitVec.getLsbD, show (0x0400 : BitVec 32).toNat = 2 ^ 10 from rfl, Nat.testBit_two_pow]

/-- `status_word & 0x0400` is non-zero exactly when bit 10 is set. -/
theorem and_0x400_ne_zero (x : BitVec 32) : (x &&& 0x0400 != 0) = x.getLsbD 10 := by
  have hbit : ∀ i, (x &&& 0x0400).getLsbD i = (x.getLsbD i && decide (10 = i)) := fun i => by
    rw [BitVec.getLsbD_and, getLsbD_0x400]
  have hz : ∀ i, (0 : BitVec 32).getLsbD i = false := fun i => by simp
  cases hx : x.getLsbD 10
  · have h0 : x &&& 0x0400 = 0 := BitVec.eq_of_getLsbD_eq fun i => by
      rw [hbit, hz]
      by_cases h : 10 = (i : Nat)
      · rw [← h, hx, Bool.false_and]
      · rw [decide_eq_false h, Bool.and_false]
    rw [h0]
    rfl
  · refine bne_iff_ne.mpr fun h0 => ?_
    have h10 := hbit 10
    rw [h0, hz, hx] at h10
    exact absurd h10 (by decide)

/-- For every sequence of poll outcomes, from the statics `last` (`Sample.initial` at the
    first call): the lines printed are, in order, the successful samples that differ from the
    successful sample before them, the first compared with `last`; the statics end at the last
    successful sample; and a line carries `Target reached!` exactly when bit 10 of its status
    word is set. -/
theorem monitor_motion_prints_changes (tp : BitVec 32) (polls : Nat) (last last' : Sample)
    (t : List Exchange) (h : Prog.Path (monitor_motion tp polls last) last' t) :
    reports t = ((samples t).destutter' (· ≠ ·) last).tail.map (statusLine tp) ∧
      last' = (samples t).getLastD last ∧
      ∀ s, statusLine tp s =
        .status (s.status_word.setWidth 16) s.actual_position tp (s.status_word.getLsbD 10) :=
  ⟨monitor_motion_reports h, monitor_motion_statics h,
    fun s => by rw [statusLine, and_0x400_ne_zero]⟩

/-- Two polls answered `0x1400` everywhere: one line, with `Target reached!`. -/
theorem repeated_sample_printed_once :
    reports ((monitor_motion 7 2 Sample.initial).run (fun _ _ => some 0x1400) []).2 =
      [.status 0x1400 0x1400 7 true] :=
  (monitor_motion_prints_changes 7 2 _ _ _ (Prog.path_run _ _ [])).1.trans (by decide)

/-- A first sample of status word 0 at position 0 equals the statics' initial value: both
    reads succeed and no line is printed. -/
theorem zero_first_sample_unprinted :
    ((monitor_motion 0 1 Sample.initial).run (fun _ _ => some 0) []).2 =
      [(statusRead, some 0), (posRead, some 0)] := by
  decide

end ErobCanopen

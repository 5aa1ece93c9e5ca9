/-
  ErobCanopen.Sdo.Schedule
  ────────────────────────
  **EVERY RUN OF THE SYNCHRONOUS DRIVE IS A TIMELY SESSION: THE TWO LEVELS HAVE THE SAME
  OUTCOMES.**

  `Sdo.Timely` shows that a timely session is a run of `runDrive`.  This module shows the
  converse: for every fate of every request there is a timely schedule of session events —
  the drive's own steps, the send, the drive serving, answering or losing the request, the
  client's poll or timeout — that makes the same exchange.  `driveSchedule` computes it for a
  whole run.  Together, a routine in a timely session can end with exactly the results and
  transactions the synchronous model allows, and with no others.

  Main results:
    * `Idle.fate` — one request from an idle session follows `Drive.transact`;
    * `Idle.schedule` — the schedule of a whole run, by induction on the routine;
    * `drive_run_is_timely_session` — every run of `runDrive` is a timely session;
    * `timely_outcomes_are_drive_outcomes` — the results and transactions of finished timely
      sessions are those of runs of `runDrive`.
-/
import ErobCanopen.Sdo.Timely

namespace ErobCanopen

/-! ## §1. Schedules. -/

/-- The events that give one request the fate `f`, from a session that waits for nothing and
    holds no frame: the drive's own steps, then for a transaction its send, the drive's
    handling of it, and the client's poll or timeout. -/
def fateEvents (f : Fate) (op : Op) : List Event :=
  f.before.map .spont ++
    if op.isTransaction then
      if f.delivered then
        if f.answered then [.send, .serve true f.other, .poll]
        else [.send, .serve false f.other, .timeout]
      else [.send, .lose, .timeout]
    else [.internal]

/-- The schedule of a whole run of the synchronous drive. -/
def driveSchedule (fates : Nat → Fate) {α : Type} : Prog α → Drive → Nat → List Event
  | .pure _, _, _ => []
  | .call op k, d, n =>
    let r := d.transact (fates n) op
    fateEvents (fates n) op ++ driveSchedule fates (k r.1) r.2 (n + 1)

/-- The schedule of `writeThenRead` when the write is applied and its response lost. -/
example : driveSchedule (fun n => ⟨[], true, n != 0, 0⟩) writeThenRead enabledDrive 0 =
    [.send, .serve false 0, .timeout, .send, .serve true 0, .poll] := rfl

/-! ## §2. One request at a time. -/

section Schedule

variable {node : BitVec 8} {α : Type}

/-- Runs compose. -/
theorem Run.append {ok : SdoSession α → Event → Prop} {s₁ s₂ s₃ : SdoSession α}
    {evs₁ evs₂ : List Event} (h₁ : Run node ok s₁ evs₁ s₂) (h₂ : Run node ok s₂ evs₂ s₃) :
    Run node ok s₁ (evs₁ ++ evs₂) s₃ := by
  induction h₁ with
  | nil => exact h₂
  | cons hok hs _ ih => exact .cons hok hs (ih h₂)

/-- The drive's own steps, one event each. -/
theorem Run.sponts (s : SdoSession α) : ∀ steps : List Spont,
    Run node (fun s e => timely s e = true) s (steps.map .spont)
      { s with drive := s.drive.settle steps }
  | [] => .nil s
  | sp :: steps => .cons rfl (.spont sp) (Run.sponts { s with drive := s.drive.spont sp } steps)

/-- A session between transactions: the client waits for nothing, and neither the drive nor
    the socket holds anything. -/
structure Idle (s : SdoSession α) : Prop where
  waiting : s.waiting = none
  inbox : s.inbox = []
  socket : s.socket = []

/-- A request that does not reach the drive leaves it to its own steps, whatever else its
    fate says. -/
theorem Drive.transact_lost (d : Drive) (steps : List Spont) (answered : Bool) (other : BitVec 32)
    (op : Op) : d.transact ⟨steps, false, answered, other⟩ op = (none, d.settle steps) := by
  cases op <;> rfl

/-- One transaction from an idle session, for each way the drive can handle it. -/
theorem Idle.transaction {s : SdoSession α} (hi : Idle s) {op : Op} {k : Answer → Prog α}
    (hp : s.prog = .call op k) (hT : op.isTransaction = true) {other : BitVec 32}
    {fr : CanFrame} {d : Drive} {v : BitVec 32}
    (hserve : s.drive.serve node other op = some (fr, d)) (hv : sdoVerdict node fr = .accept v)
    (delivered answered : Bool) :
    ∃ s', Run node (fun s e => timely s e = true) s
        (fateEvents ⟨[], delivered, answered, other⟩ op) s' ∧ Idle s' ∧
      s'.prog = k (s.drive.transact ⟨[], delivered, answered, other⟩ op).1 ∧
      s'.drive = (s.drive.transact ⟨[], delivered, answered, other⟩ op).2 ∧
      s'.log.map Outcome.exchange = s.log.map Outcome.exchange ++
        [(op, (s.drive.transact ⟨[], delivered, answered, other⟩ op).1)] := by
  have hsend : Step node s .send _ := .send hp hi.waiting hT
  have hin : SdoSession.inbox { s with waiting := some s.next, next := s.next + 1,
                                       inbox := s.inbox ++ [(s.next, op)] } = [(s.next, op)] := by
    simp [hi.inbox]
  simp only [fateEvents, hT, List.map_nil, List.nil_append]
  cases delivered with
  | false =>
    refine ⟨_, .cons (by simp [timely]) hsend (.cons rfl (.lose hin)
      (.cons (by simp [timely, hi.socket]) (.timeout hp rfl) (.nil _))), ⟨rfl, rfl, hi.socket⟩,
      ?_, ?_, ?_⟩ <;> simp [Drive.transact_lost, Drive.settle, Outcome.exchange]
  | true =>
    have ht := Drive.transact_of_serve
      (show (s.drive.settle []).serve node other op = some (fr, d) from hserve)
    cases answered with
    | false =>
      refine ⟨_, .cons (by simp [timely]) hsend (.cons rfl (.serve hin hserve)
        (.cons (by simp [timely, hi.socket]) (.timeout hp rfl) (.nil _))), ⟨rfl, rfl, hi.socket⟩,
        ?_, ?_, ?_⟩ <;> simp [ht false, Outcome.exchange]
    | true =>
      have hsock : s.socket ++ [⟨some s.next, fr⟩] = [⟨some s.next, fr⟩] := by simp [hi.socket]
      refine ⟨_, .cons (by simp [timely, hi.inbox]) hsend (.cons (by simp [timely, hi.inbox])
        (.serve hin hserve) (.cons rfl (.accept hp rfl hsock hv) (.nil _))), ⟨rfl, rfl, rfl⟩,
        ?_, ?_, ?_⟩ <;> simp [ht true, receiveWith_cons_accept hv, Outcome.exchange]

/-- One request from an idle session, for any fate: the session follows the exchange of the
    synchronous drive. -/
theorem Idle.fate {s : SdoSession α} (hi : Idle s) {op : Op} {k : Answer → Prog α}
    (hp : s.prog = .call op k) (f : Fate) :
    ∃ s', Run node (fun s e => timely s e = true) s (fateEvents f op) s' ∧ Idle s' ∧
      s'.prog = k (s.drive.transact f op).1 ∧ s'.drive = (s.drive.transact f op).2 ∧
      s'.log.map Outcome.exchange = s.log.map Outcome.exchange ++
        if op.isTransaction then [(op, (s.drive.transact f op).1)] else [] := by
  obtain ⟨before, delivered, answered, other⟩ := f
  have h₀ : Run node _ s _ _ := Run.sponts s before
  have hi₀ : Idle { s with drive := s.drive.settle before } := ⟨hi.1, hi.2, hi.3⟩
  cases op with
  | read i sub =>
    obtain ⟨s', h, rest⟩ := hi₀.transaction hp rfl
      (show (s.drive.settle before).serve node other (.read i sub) = _ from rfl)
      (sdoVerdict_uploadResponse node i sub _) delivered answered
    exact ⟨s', h₀.append h, rest⟩
  | write i sub w =>
    obtain ⟨s', h, rest⟩ := hi₀.transaction hp rfl
      (show (s.drive.settle before).serve node other (.write i sub w) = _ from rfl)
      (sdoVerdict_downloadResponse node i sub) delivered answered
    exact ⟨s', h₀.append h, rest⟩
  | nmt | report =>
    exact ⟨_, h₀.append (.cons rfl (.internal hp hi.waiting rfl) (.nil _)), ⟨hi.1, hi.2, hi.3⟩,
      rfl, rfl, by simp [Op.isTransaction]⟩

/-! ## §3. Every run of the synchronous drive. -/

/-- From an idle session, the schedule of a run of the synchronous drive runs the routine to
    its end with the same result, the same transactions and the same drive. -/
theorem Idle.schedule (fates : Nat → Fate) (prog : Prog α) :
    ∀ (s : SdoSession α) (n : Nat), Idle s → s.prog = prog →
      ∃ s', Run node (fun s e => timely s e = true) s (driveSchedule fates prog s.drive n) s' ∧
        s'.prog = .pure (runDrive fates prog s.drive n).1 ∧
        s'.log.map Outcome.exchange = s.log.map Outcome.exchange ++
          (runDrive fates prog s.drive n).2.1.filter (fun e => e.1.isTransaction) ∧
        s'.drive = (runDrive fates prog s.drive n).2.2 := by
  induction prog with
  | pure a => exact fun _ n _ hp => ⟨_, .nil _, hp, by simp [runDrive], rfl⟩
  | call op k ih =>
    intro s n hi hp
    obtain ⟨s₁, h₁, hi₁, hp₁, hd₁, hl₁⟩ := hi.fate hp (fates n)
    obtain ⟨s₂, h₂, hp₂, hl₂, hd₂⟩ := ih _ s₁ (n + 1) hi₁ hp₁
    rw [hd₁] at h₂ hp₂ hl₂ hd₂
    refine ⟨s₂, h₁.append h₂, hp₂, ?_, hd₂⟩
    rw [hl₂, hl₁]
    simp only [runDrive, List.filter_cons, List.append_assoc]
    split <;> simp_all

end Schedule

/-- Every run of the synchronous drive, for every fate of every request, is the outcome of a
    timely session: `driveSchedule` runs the routine to the same result, with the same
    transactions, leaving the drive in the same state. -/
theorem drive_run_is_timely_session (node : BitVec 8) {α : Type} (fates : Nat → Fate)
    (prog : Prog α) (d : Drive) :
    ∃ s, Run node (fun s e => timely s e = true) (SdoSession.start prog d)
        (driveSchedule fates prog d 0) s ∧
      s.prog = .pure (runDrive fates prog d 0).1 ∧
      s.log.map Outcome.exchange =
        (runDrive fates prog d 0).2.1.filter (fun e => e.1.isTransaction) ∧
      s.drive = (runDrive fates prog d 0).2.2 := by
  simpa using Idle.schedule fates prog (SdoSession.start prog d) 0 ⟨rfl, rfl, rfl⟩ rfl

/-! ## §4. The same outcomes. -/

/-- A routine finishing in a timely session with result `a` and transactions `t` is exactly
    a run of the synchronous drive with that result and those transactions, for some fate of
    each request. -/
theorem timely_outcomes_are_drive_outcomes (node : BitVec 8) {α : Type} (prog : Prog α)
    (d : Drive) (a : α) (t : List Exchange) :
    (∃ evs s, Run node (fun s e => timely s e = true) (SdoSession.start prog d) evs s ∧
        s.prog = .pure a ∧ s.log.map Outcome.exchange = t) ↔
      ∃ fates, (runDrive fates prog d 0).1 = a ∧
        (runDrive fates prog d 0).2.1.filter (fun e => e.1.isTransaction) = t := by
  constructor
  · rintro ⟨evs, s, h, hfin, rfl⟩
    have hk := (Tracks.start prog d).run (Clean.start prog d) h
    obtain ⟨d₁, steps, hf, -⟩ := hk.follows (hk.waiting_of_pure hfin)
    obtain ⟨t, hp, ht, hn⟩ := ((Reflects.start prog d).run h).reach.path a hfin
    obtain ⟨fates, e⟩ := hp.runDrive 0 (Follows.of_filter (ht ▸ hf) hn)
    exact ⟨fates, by rw [e], by rw [e, ht]⟩
  · rintro ⟨fates, rfl, rfl⟩
    obtain ⟨s, h, hp, hl, -⟩ :=
      Idle.schedule fates prog (SdoSession.start prog d) 0 ⟨rfl, rfl, rfl⟩ rfl
    exact ⟨_, s, h, hp, by simpa using hl⟩

end ErobCanopen

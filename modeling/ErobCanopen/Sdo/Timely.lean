/-
  ErobCanopen.Sdo.Timely
  ──────────────────────
  **TIMELY SESSIONS ARE RUNS OF THE SYNCHRONOUS DRIVE: THE SESSION REFINES `runDrive`.**

  `Drive.Cia402` runs a routine against the drive one transaction at a time: each request
  reaches the drive or not, its response reaches the client or not, and every response is
  taken by its own request.  `Sdo.Session` puts the client, its socket and the drive side by
  side: a request the client gave up on stays with the drive and is applied, or lost, later;
  the drive steps on its own at any time; responses wait on the socket.  In a timely run the
  two levels agree.  Whenever the client waits for nothing, the drive is where the
  synchronous model takes it over the exchanges the client logged, followed by steps of its
  own; and a routine that has finished made a run of `runDrive` for some fate of each
  transaction.  So every property proved of `runDrive` holds of timely sessions.

  The drive may lag behind the log: requests the client logged as failures can still be
  queued with it, and are taken later, in the order sent.  The synchronous model answers a
  request `none` both when it never reaches the drive and when it is applied and its
  response is lost, so a failure taken late is, to it, a failure taken on time.

  Main results:
    * `Lagging`, `Tracks` — the drive against the log, by the stage of the request the client
      waits for;
    * `Tracks.step`, `Tracks.run` — every timely event keeps the relation;
    * `timely_session_follows_log` — whenever the client waits for nothing;
    * `timely_session_is_drive_run` — a finished routine made a run of `runDrive`.
-/
import ErobCanopen.Sdo.Session

namespace ErobCanopen

/-! ## §1. The synchronous drive, exchange by exchange. -/

theorem Drive.settle_append (d : Drive) (s₁ s₂ : List Spont) :
    d.settle (s₁ ++ s₂) = (d.settle s₁).settle s₂ :=
  List.foldl_append _ _ _ _

/-- A request that does not reach the drive leaves it to its own steps. -/
theorem Drive.transact_undelivered (d : Drive) (steps : List Spont) (op : Op) :
    d.transact ⟨steps, false, false, 0⟩ op = (none, d.settle steps) := by
  cases op <;> rfl

/-- A request the drive serves is an exchange of the synchronous model: applied, with its
    response lost, or answered as the client decides the response. -/
theorem Drive.transact_of_serve {node : BitVec 8} {d d' : Drive} {steps : List Spont}
    {other : BitVec 32} {op : Op} {f : CanFrame}
    (h : (d.settle steps).serve node other op = some (f, d')) (reply : Bool) :
    d.transact ⟨steps, true, reply, other⟩ op =
      (if reply then (receiveWith (sdoVerdict node) [f]).1 else none, d') := by
  cases op with
  | read i s =>
    cases h
    cases reply
    · rfl
    · rw [receiveWith_cons_accept (sdoVerdict_uploadResponse node i s _)]
      simp only [uploadResponse, payload_sdoFrame]
      rfl
  | write i s w =>
    cases h
    cases reply
    · rfl
    · simp only [receiveWith_cons_accept (sdoVerdict_downloadResponse node i s)]
      rfl
  | _ => cases h

theorem Follows.append {d d' d'' : Drive} {t₁ t₂ : List Exchange} (h₁ : Follows d t₁ d')
    (h₂ : Follows d' t₂ d'') : Follows d (t₁ ++ t₂) d'' := by
  induction h₁ with
  | nil => exact h₂
  | cons f h _ ih => exact .cons f h (ih h₂)

/-- Exchanges that all failed are followed by a drive that took none of them. -/
theorem Follows.of_failures (d : Drive) :
    ∀ {t : List Exchange}, (∀ e ∈ t, e.2 = none) → Follows d t d
  | [], _ => .nil d
  | (op, r) :: t, h => by
    obtain rfl : r = none := h _ (List.mem_cons_self _ _)
    exact .cons ⟨[], false, false, 0⟩ (d.transact_undelivered [] op)
      (Follows.of_failures d fun e he => h e (List.mem_cons_of_mem _ he))

/-- The drive follows a path of a routine when it follows the path's transactions and the
    path's other requests were answered `none`. -/
theorem Follows.of_filter {d d' : Drive} :
    ∀ {t : List Exchange}, Follows d (t.filter fun e => e.1.isTransaction) d' →
      (∀ e ∈ t, e.1.isTransaction = false → e.2 = none) → Follows d t d'
  | [], h, _ => h
  | (op, r) :: t, h, hn => by
    have hn' := fun e he => hn e (List.mem_cons_of_mem _ he)
    by_cases hop : op.isTransaction = true
    · rw [List.filter_cons, if_pos hop] at h
      obtain ⟨f, d₁, h₁, h₂⟩ := h.cons_inv
      exact .cons f h₁ (Follows.of_filter h₂ hn')
    · rw [List.filter_cons, if_neg hop] at h
      obtain rfl : r = none := hn _ (List.mem_cons_self _ _) (by simpa using hop)
      exact .cons ⟨[], false, false, 0⟩ (d.transact_undelivered [] op) (Follows.of_filter h hn')

/-- A run against the drive reads the fates of its own transactions only. -/
theorem runDrive_congr (fates fates' : Nat → Fate) {α : Type} (x : Prog α) :
    ∀ (d : Drive) (n : Nat), (∀ m, n ≤ m → fates m = fates' m) →
      runDrive fates x d n = runDrive fates' x d n := by
  induction x with
  | pure a => intro d n _; rfl
  | call op k ih =>
    intro d n h
    simp only [runDrive]
    rw [h n le_rfl, ih _ _ (n + 1) fun m hm => h m (by omega)]

/-- A path of a routine that the drive follows is a run against the drive, for some fate of
    each transaction. -/
theorem Prog.Path.runDrive {α : Type} {x : Prog α} {a : α} {t : List Exchange}
    (hp : Prog.Path x a t) :
    ∀ {d d' : Drive} (n : Nat), Follows d t d' →
      ∃ fates, ErobCanopen.runDrive fates x d n = (a, t, d') := by
  induction hp with
  | pure a =>
    intro d d' n h
    cases h
    exact ⟨fun _ => ⟨[], false, false, 0⟩, rfl⟩
  | call r _ ih =>
    intro d d' n h
    obtain ⟨f, d₁, h₁, h₂⟩ := h.cons_inv
    dsimp only at h₁
    obtain ⟨fates, e⟩ := ih (n + 1) h₂
    refine ⟨fun m => if m = n then f else fates m, ?_⟩
    simp only [ErobCanopen.runDrive, eq_self_iff_true, if_true, h₁]
    rw [runDrive_congr _ fates _ _ (n + 1) fun m hm => if_neg (by omega), e]

/-! ## §2. A drive behind the log. -/

/-- The drive, started as `d₀`, lags behind the exchanges `t` the client logged: it has
    followed a prefix of them and taken steps of its own since; every later exchange was
    logged as a failure, and the requests still queued with it, `queued`, are among those
    in the order logged. -/
def Lagging (d₀ : Drive) (t : List Exchange) (drive : Drive) (queued : List Op) : Prop :=
  ∃ done pend d₁ steps, t = done ++ pend ∧ (∀ e ∈ pend, e.2 = none) ∧
    queued.Sublist (pend.map Prod.fst) ∧ Follows d₀ done d₁ ∧ drive = d₁.settle steps

theorem Lagging.start (d : Drive) : Lagging d [] d [] :=
  ⟨[], [], d, [], rfl, (fun _ h => nomatch h), .slnil, .nil d, rfl⟩

/-- A drive that has followed the whole log lags behind it by nothing. -/
theorem Lagging.of_follows {d₀ d₁ : Drive} {t : List Exchange} (h : Follows d₀ t d₁)
    (steps : List Spont) : Lagging d₀ t (d₁.settle steps) [] :=
  ⟨t, [], d₁, steps, (List.append_nil t).symm, (fun _ h => nomatch h), .slnil, h, rfl⟩

section Lag

variable {d₀ drive : Drive} {t : List Exchange} {queued : List Op}

/-- To the synchronous model, the drive has followed the whole log. -/
theorem Lagging.follows (h : Lagging d₀ t drive queued) :
    ∃ d₁ steps, Follows d₀ t d₁ ∧ drive = d₁.settle steps := by
  obtain ⟨done, pend, d₁, steps, rfl, hn, -, hf, rfl⟩ := h
  exact ⟨d₁, steps, hf.append (.of_failures d₁ hn), rfl⟩

/-- The client logs a failure: a request that never reached the drive, or one still queued. -/
theorem Lagging.fail (h : Lagging d₀ t drive queued) (op : Op) {queued' : List Op}
    (hq : queued'.Sublist (queued ++ [op])) : Lagging d₀ (t ++ [(op, none)]) drive queued' := by
  obtain ⟨done, pend, d₁, steps, rfl, hn, hs, hf, rfl⟩ := h
  refine ⟨done, pend ++ [(op, none)], d₁, steps, List.append_assoc _ _ _, fun e he => ?_,
    hq.trans (by rw [List.map_append]; exact hs.append (.refl _)), hf, rfl⟩
  rcases List.mem_append.mp he with he | he
  · exact hn e he
  · rw [List.mem_singleton.mp he]

theorem Lagging.spont (h : Lagging d₀ t drive queued) (sp : Spont) :
    Lagging d₀ t (drive.spont sp) queued := by
  obtain ⟨done, pend, d₁, steps, rfl, hn, hs, hf, rfl⟩ := h
  exact ⟨done, pend, d₁, steps ++ [sp], rfl, hn, hs, hf, (Drive.settle_append d₁ steps [sp]).symm⟩

/-- The oldest queued request, split out of the failures logged for it and after it. -/
theorem split_queued {op : Op} : ∀ {pend : List Exchange},
    (op :: queued).Sublist (pend.map Prod.fst) →
      ∃ u r v, pend = u ++ (op, r) :: v ∧ queued.Sublist (v.map Prod.fst)
  | [], h => by cases h
  | x :: pend, h => by
    rcases List.sublist_cons_iff.mp h with h | ⟨_, hr, h⟩
    · obtain ⟨u, r, v, rfl, hq⟩ := split_queued h
      exact ⟨x :: u, r, v, rfl, hq⟩
    · obtain ⟨rfl, rfl⟩ := List.cons.inj hr
      exact ⟨[], x.2, pend, rfl, h⟩

/-- The drive takes its oldest queued request, logged as a failure: applied or not, it is an
    exchange answered `none`. -/
theorem Lagging.take {op : Op} (h : Lagging d₀ t drive (op :: queued)) {drive' : Drive}
    (ht : ∀ (d₁ : Drive) (steps : List Spont), drive = d₁.settle steps →
      ∃ f, d₁.transact f op = (none, drive')) :
    Lagging d₀ t drive' queued := by
  obtain ⟨done, pend, d₁, steps, rfl, hn, hs, hf, rfl⟩ := h
  obtain ⟨u, r, v, rfl, hq⟩ := split_queued hs
  obtain rfl : r = none := hn (op, r) (by simp)
  obtain ⟨f, hf'⟩ := ht d₁ steps rfl
  refine ⟨done ++ u ++ [(op, none)], v, drive', [], by simp, fun e he => hn e (by simp [he]), hq,
    (hf.append (.of_failures d₁ fun e he => hn e (by simp [he]))).append (.cons f hf' (.nil _)),
    rfl⟩

/-- The drive takes the request the client waits for, behind only failures. -/
theorem Lagging.take_waiting {op : Op} {a : Answer} (h : Lagging d₀ t drive queued)
    {drive' : Drive} (ht : ∀ (d₁ : Drive) (steps : List Spont), drive = d₁.settle steps →
      ∃ f, d₁.transact f op = (a, drive')) :
    Follows d₀ (t ++ [(op, a)]) drive' := by
  obtain ⟨done, pend, d₁, steps, rfl, hn, -, hf, rfl⟩ := h
  obtain ⟨f, hf'⟩ := ht d₁ steps rfl
  rw [List.append_assoc]
  exact hf.append ((Follows.of_failures d₁ hn).append (.cons f hf' (.nil _)))

end Lag

/-! ## §3. The stage of the request the client waits for. -/

section Tracking

variable (node : BitVec 8) {α : Type}

/-- What the client would get reading its socket to the end: the answer of the first frame
    that decides its transaction, `none` if no frame does. -/
def socketAnswer (socket : List Arrival) : Answer :=
  (receiveWith (sdoVerdict node) (socket.map Arrival.frame)).1

/-- Where the drive stands in a session started with the drive `d₀`. -/
inductive Tracks (d₀ : Drive) (s : SdoSession α) : Prop where
  /-- The client waits for nothing; the drive lags behind the log by the requests it holds. -/
  | idle : s.waiting = none →
      Lagging d₀ (s.log.map Outcome.exchange) s.drive (s.inbox.map Prod.snd) → Tracks d₀ s
  /-- The request the client waits for is queued with the drive, behind older ones. -/
  | queued {id : Nat} {op : Op} {k : Answer → Prog α} {older : List (Nat × Op)} :
      s.waiting = some id → s.prog = .call op k → s.inbox = older ++ [(id, op)] →
      Lagging d₀ (s.log.map Outcome.exchange) s.drive (older.map Prod.snd) → Tracks d₀ s
  /-- The drive has taken the request the client waits for and all before it: it followed the
      log and this request, answered as the socket will answer it. -/
  | taken {id : Nat} {op : Op} {k : Answer → Prog α} {d₁ : Drive} {steps : List Spont} :
      s.waiting = some id → s.prog = .call op k → s.inbox = [] →
      Follows d₀ (s.log.map Outcome.exchange ++ [(op, socketAnswer node s.socket)]) d₁ →
      s.drive = d₁.settle steps → Tracks d₀ s

variable {node}

theorem socketAnswer_cons_skip {a : Arrival} (h : sdoVerdict node a.frame = .skip)
    (rest : List Arrival) : socketAnswer node (a :: rest) = socketAnswer node rest := by
  simp only [socketAnswer, List.map_cons, receiveWith_cons_skip h]

/-- Frames that are all skipped decide nothing. -/
theorem socketAnswer_append_of_skips {socket : List Arrival}
    (h : ∀ a ∈ socket, sdoVerdict node a.frame = .skip) (more : List Arrival) :
    socketAnswer node (socket ++ more) = socketAnswer node more := by
  simp only [socketAnswer, List.map_append]
  rw [receiveWith_append_of_skip fun f hf => by
    obtain ⟨a, ha, rfl⟩ := List.mem_map.mp hf
    exact h a ha]

/-- A frame skipped at the end of the socket decides nothing. -/
theorem receiveWith_append_skip_fst {verdict : CanFrame → Verdict} {f : CanFrame}
    (h : verdict f = .skip) :
    ∀ l : List CanFrame, (receiveWith verdict (l ++ [f])).1 = (receiveWith verdict l).1
  | [] => by simp only [List.nil_append, receiveWith_cons_skip h, receiveWith_nil]
  | g :: l => by
    rw [List.cons_append]
    cases hg : verdict g with
    | skip =>
      rw [receiveWith_cons_skip hg, receiveWith_cons_skip hg, receiveWith_append_skip_fst h l]
    | accept v => rw [receiveWith_cons_accept hg, receiveWith_cons_accept hg]
    | abort => rw [receiveWith_cons_abort hg, receiveWith_cons_abort hg]

theorem abortFor_verdict {code : BitVec 32} {op : Op} {f : CanFrame}
    (h : abortFor node code op = some f) : sdoVerdict node f = .abort := by
  cases op with
  | read i s => cases h; exact sdoVerdict_abortResponse node i s code
  | write i s w => cases h; exact sdoVerdict_abortResponse node i s code
  | _ => cases h

/-- Frames no request waits for are skipped. -/
theorem Clean.skips_of_untagged {s : SdoSession α} (hc : Clean node s)
    (hu : ∀ a ∈ s.socket, a.answers = none) : ∀ a ∈ s.socket, sdoVerdict node a.frame = .skip :=
  fun a ha => sdoVerdict_of_can_id_ne (hc.untagged a ha (hu a ha))

/-- While the request the client waits for is queued with the drive, no frame answers it. -/
theorem Clean.untagged_of_queued {s : SdoSession α} (hc : Clean node s) {id : Nat} {op : Op}
    (hw : s.waiting = some id) (hin : (id, op) ∈ s.inbox) : ∀ a ∈ s.socket, a.answers = none := by
  intro a ha
  cases hid : a.answers with
  | none => rfl
  | some id' =>
    obtain ⟨h1, -, h3⟩ := hc.tagged a ha id' hid
    exact absurd (Option.some_inj.mp (hw.symm.trans h1)) (h3 _ hin)

/-- A timely timeout finds no frame answering the request. -/
theorem Clean.untagged_of_timeout {s : SdoSession α} (hc : Clean node s)
    (ht : timely s .timeout = true) : ∀ a ∈ s.socket, a.answers = none := by
  intro a ha
  cases hid : a.answers with
  | none => rfl
  | some id' =>
    have := List.all_eq_true.mp ht a ha
    rw [hid, (hc.tagged a ha id' hid).1] at this
    simp at this

/-! ## §4. Every timely event keeps the stage. -/

variable {d₀ : Drive} {s s' : SdoSession α} {e : Event}

@[simp] theorem Outcome.exchange_mk (op : Op) (id : Nat) (answer : Answer) (a : Option Arrival) :
    Outcome.exchange ⟨op, id, answer, a⟩ = (op, answer) := rfl

/-- The client waits for nothing: it sends, fails to send or prints, and the drive takes
    queued failures. -/
theorem Tracks.step_idle (hw : s.waiting = none)
    (hl : Lagging d₀ (s.log.map Outcome.exchange) s.drive (s.inbox.map Prod.snd))
    (h : Step node s e s') : Tracks node d₀ s' := by
  cases h with
  | send hp => exact .queued rfl hp rfl hl
  | sendFail =>
    refine .idle hw ?_
    simpa using hl.fail _ (List.sublist_append_left _ _)
  | internal => exact .idle hw hl
  | skip _ hw' | accept _ hw' | abort _ hw' | timeout _ hw' => cases hw.symm.trans hw'
  | serve hi hfd =>
    rw [hi, List.map_cons] at hl
    exact .idle hw (hl.take fun d₁ steps hd => ⟨_, Drive.transact_of_serve (hd ▸ hfd) false⟩)
  | refuse hi | lose hi =>
    rw [hi, List.map_cons] at hl
    exact .idle hw (hl.take fun d₁ steps hd => ⟨_, hd ▸ Drive.transact_undelivered d₁ steps _⟩)
  | spont sp => exact .idle hw (hl.spont sp)
  | noise => exact .idle hw hl

/-- The request the client waits for is queued: the drive takes the older ones, then it. -/
theorem Tracks.step_queued (hc : Clean node s) {id : Nat} {op : Op} {k : Answer → Prog α}
    {older : List (Nat × Op)} (hw : s.waiting = some id) (hp : s.prog = .call op k)
    (hi : s.inbox = older ++ [(id, op)])
    (hl : Lagging d₀ (s.log.map Outcome.exchange) s.drive (older.map Prod.snd))
    (h : Step node s e s') : Tracks node d₀ s' := by
  have hin : (id, op) ∈ s.inbox := by rw [hi]; simp
  have hskip := hc.skips_of_untagged (hc.untagged_of_queued hw hin)
  have hnone : socketAnswer node s.socket = none := by
    simpa using socketAnswer_append_of_skips hskip []
  cases h with
  | send _ hw' | sendFail _ hw' | internal _ hw' => cases hw.symm.trans hw'
  | skip => exact .queued hw hp hi hl
  | accept _ _ hs hv | abort _ _ hs hv =>
    cases hv.symm.trans (hskip _ (hs ▸ List.mem_cons_self _ _))
  | timeout hp' =>
    obtain ⟨rfl, rfl⟩ := Prog.call.inj (hp.symm.trans hp')
    refine .idle rfl ?_
    simpa [hi] using hl.fail op (.refl _)
  | serve hi' hfd =>
    rename_i r rest reply other f d
    cases older with
    | nil =>
      obtain ⟨rfl, rfl⟩ := List.cons.inj (hi'.symm.trans hi)
      refine .taken hw hp rfl (hl.take_waiting fun d₁ steps hd =>
        ⟨_, (Drive.transact_of_serve (hd ▸ hfd) reply).trans ?_⟩) (show d = d.settle [] from rfl)
      cases reply
      · exact congrArg (·, d) hnone.symm
      · exact congrArg (·, d) (socketAnswer_append_of_skips hskip [⟨some id, f⟩]).symm
    | cons r₀ older =>
      obtain ⟨rfl, rfl⟩ := List.cons.inj (hi'.symm.trans hi)
      rw [List.map_cons] at hl
      exact .queued hw hp rfl
        (hl.take fun d₁ steps hd => ⟨_, Drive.transact_of_serve (hd ▸ hfd) false⟩)
  | refuse hi' hf | lose hi' =>
    cases older with
    | nil =>
      obtain ⟨rfl, rfl⟩ := List.cons.inj (hi'.symm.trans hi)
      refine .taken hw hp rfl ?_ (show s.drive = s.drive.settle [] from rfl)
      first
        | rw [socketAnswer_append_of_skips hskip]
          simp only [socketAnswer, List.map_cons, List.map_nil,
            receiveWith_cons_abort (abortFor_verdict hf)]
        | rw [hnone]
      exact hl.take_waiting fun d₁ steps hd => ⟨_, hd ▸ Drive.transact_undelivered d₁ steps _⟩
    | cons r₀ older =>
      obtain ⟨rfl, rfl⟩ := List.cons.inj (hi'.symm.trans hi)
      rw [List.map_cons] at hl
      exact .queued hw hp rfl
        (hl.take fun d₁ steps hd => ⟨_, hd ▸ Drive.transact_undelivered d₁ steps _⟩)
  | spont sp => exact .queued hw hp hi (hl.spont sp)
  | noise => exact .queued hw hp hi hl

/-- A frame from another node at the end of the socket does not change what it answers. -/
theorem socketAnswer_append_noise {socket : List Arrival} {f : CanFrame}
    (hf : f.can_id ≠ sdoServerCob node) (x : Option Nat) :
    socketAnswer node (socket ++ [⟨x, f⟩]) = socketAnswer node socket := by
  simp only [socketAnswer, List.map_append, List.map_cons, List.map_nil]
  exact receiveWith_append_skip_fst (sdoVerdict_of_can_id_ne hf) _

/-- The drive has taken the request the client waits for: the client reads the response, or
    times out when none is queued. -/
theorem Tracks.step_taken (hc : Clean node s) (ht : timely s e = true) {id : Nat} {op : Op}
    {k : Answer → Prog α} {d₁ : Drive} {steps : List Spont} (hw : s.waiting = some id)
    (hp : s.prog = .call op k) (hi : s.inbox = [])
    (hf : Follows d₀ (s.log.map Outcome.exchange ++ [(op, socketAnswer node s.socket)]) d₁)
    (hd : s.drive = d₁.settle steps) (h : Step node s e s') : Tracks node d₀ s' := by
  cases h with
  | send _ hw' | sendFail _ hw' | internal _ hw' => cases hw.symm.trans hw'
  | skip _ _ hs hv =>
    rw [hs, socketAnswer_cons_skip hv] at hf
    exact .taken hw hp hi hf hd
  | accept hp' _ hs hv =>
    obtain ⟨rfl, rfl⟩ := Prog.call.inj (hp.symm.trans hp')
    simp only [hs, socketAnswer, List.map_cons, receiveWith_cons_accept hv] at hf
    refine .idle rfl ?_
    simpa [hi, hd] using Lagging.of_follows hf steps
  | abort hp' _ hs hv =>
    obtain ⟨rfl, rfl⟩ := Prog.call.inj (hp.symm.trans hp')
    simp only [hs, socketAnswer, List.map_cons, receiveWith_cons_abort hv] at hf
    refine .idle rfl ?_
    simpa [hi, hd] using Lagging.of_follows hf steps
  | timeout hp' =>
    obtain ⟨rfl, rfl⟩ := Prog.call.inj (hp.symm.trans hp')
    have hnone : socketAnswer node s.socket = none := by
      simpa using socketAnswer_append_of_skips
        (hc.skips_of_untagged (hc.untagged_of_timeout ht)) []
    rw [hnone] at hf
    refine .idle rfl ?_
    simpa [hi, hd] using Lagging.of_follows hf steps
  | serve hi' | refuse hi' | lose hi' => cases hi.symm.trans hi'
  | spont sp =>
    exact .taken hw hp hi hf (show s.drive.spont sp = d₁.settle (steps ++ [sp]) by
      rw [hd]; exact (Drive.settle_append d₁ steps [sp]).symm)
  | noise hf' => exact .taken hw hp hi ((socketAnswer_append_noise hf' none).symm ▸ hf) hd

/-- Every timely event keeps the drive tracked. -/
theorem Tracks.step (hc : Clean node s) (ht : timely s e = true) (h : Step node s e s')
    (hk : Tracks node d₀ s) : Tracks node d₀ s' := by
  cases hk with
  | idle hw hl => exact Tracks.step_idle hw hl h
  | queued hw hp hi hl => exact Tracks.step_queued hc hw hp hi hl h
  | taken hw hp hi hf hd => exact Tracks.step_taken hc ht hw hp hi hf hd h

theorem Tracks.run {evs : List Event} (hc : Clean node s) (hk : Tracks node d₀ s)
    (h : Run node (fun s e => timely s e = true) s evs s') : Tracks node d₀ s' := by
  induction h with
  | nil => exact hk
  | cons ht hs _ ih => exact ih (hc.step ht hs) (hk.step hc ht hs)

theorem Tracks.start (prog : Prog α) (d : Drive) : Tracks node d (SdoSession.start prog d) :=
  .idle rfl (Lagging.start d)

/-- A client that waits for nothing sees a drive the synchronous model reaches. -/
theorem Tracks.follows (hk : Tracks node d₀ s) (hw : s.waiting = none) :
    ∃ d₁ steps, Follows d₀ (s.log.map Outcome.exchange) d₁ ∧ s.drive = d₁.settle steps := by
  cases hk with
  | idle _ hl => exact hl.follows
  | queued hw' | taken hw' => cases hw.symm.trans hw'

/-- A finished client waits for nothing. -/
theorem Tracks.waiting_of_pure {a : α} (hk : Tracks node d₀ s) (hp : s.prog = .pure a) :
    s.waiting = none := by
  cases hk with
  | idle hw => exact hw
  | queued _ hp' | taken _ hp' => cases hp.symm.trans hp'

/-! ## §5. The refinement. -/

/-- Whenever the client of a timely session waits for nothing — its log of completed
    transactions, failures taken late by the drive included — the drive is where the
    synchronous model of `Drive.Cia402` takes it over the exchanges the client logged,
    followed by steps of its own. -/
theorem timely_session_follows_log (node : BitVec 8) (prog : Prog α) (d : Drive)
    {evs : List Event} {s : SdoSession α}
    (h : Run node (fun s e => timely s e = true) (SdoSession.start prog d) evs s)
    (hw : s.waiting = none) :
    ∃ d₁ steps, Follows d (s.log.map Outcome.exchange) d₁ ∧ s.drive = d₁.settle steps :=
  ((Tracks.start prog d).run (Clean.start prog d) h).follows hw

/-- Every timely session in which the routine has finished is a run of the routine against
    the synchronous drive, for some fate of each transaction: the same result, the same
    answers to its transactions, and the same drive up to steps of its own. -/
theorem timely_session_is_drive_run (node : BitVec 8) (prog : Prog α) (d : Drive)
    {evs : List Event} {s : SdoSession α} {a : α}
    (h : Run node (fun s e => timely s e = true) (SdoSession.start prog d) evs s)
    (hfin : s.prog = .pure a) :
    ∃ fates t d₁ steps, runDrive fates prog d 0 = (a, t, d₁) ∧
      t.filter (fun e => e.1.isTransaction) = s.log.map Outcome.exchange ∧
      s.drive = d₁.settle steps := by
  have hk := (Tracks.start prog d).run (Clean.start prog d) h
  obtain ⟨d₁, steps, hf, hd⟩ := hk.follows (hk.waiting_of_pure hfin)
  obtain ⟨t, hp, ht, hn⟩ := ((Reflects.start prog d).run h).reach.path a hfin
  obtain ⟨fates, e⟩ := hp.runDrive 0 (Follows.of_filter (ht ▸ hf) hn)
  exact ⟨fates, t, d₁, steps, e, ht, hd⟩
/-- A drive after Shutdown: control word `0x06`. -/
def shutdownDrive : Drive := ⟨0x06, 0, false, false, []⟩

/-- `writeThenRead` in a timely session: the write times out while still queued, the read is
    sent, and the drive applies the write, its response lost, before it answers the read. -/
def lateWriteEvents : List Event :=
  [.send, .timeout, .send, .serve false 0, .serve true 0, .poll]

/-- The client logged the write as failed, yet reads back the control word it wrote: to the
    synchronous model, a write applied with its response lost. -/
theorem failed_write_read_back :
    ∃ s, Run 2 (fun s e => timely s e = true) (SdoSession.start writeThenRead shutdownDrive)
        lateWriteEvents s ∧
      s.waiting = none ∧
      s.log.map Outcome.exchange = [(.write 0x6040 0 0x0F, none), (.read 0x6040 0, some 0x0F)] ∧
      ∃ d₁ steps, Follows shutdownDrive (s.log.map Outcome.exchange) d₁ ∧
        s.drive = d₁.settle steps := by
  have hv : ((SdoSession.start writeThenRead shutdownDrive).stepsWhen 2 timely
      lateWriteEvents).map (fun s => (s.waiting, s.log.map Outcome.exchange)) =
      some (none, [(.write 0x6040 0 0x0F, none), (.read 0x6040 0, some 0x0F)]) := rfl
  obtain ⟨s, hs, hv⟩ := Option.map_eq_some'.mp hv
  obtain ⟨hw, hl⟩ := Prod.mk.inj hv
  have hrun := run_of_stepsWhen 2 hs
  exact ⟨s, hrun, hw, hl, timely_session_follows_log 2 writeThenRead shutdownDrive hrun hw⟩

/-- The same session, finished, is a run of `writeThenRead` against the synchronous drive. -/
theorem failed_write_run_is_drive_run :
    ∃ s, Run 2 (fun s e => timely s e = true) (SdoSession.start writeThenRead shutdownDrive)
        lateWriteEvents s ∧
      s.prog = .pure (some 0x0F) ∧
      ∃ fates t d₁ steps, runDrive fates writeThenRead shutdownDrive 0 = (some 0x0F, t, d₁) ∧
        t.filter (fun e => e.1.isTransaction) = s.log.map Outcome.exchange ∧
        s.drive = d₁.settle steps := by
  have hfin : ((SdoSession.start writeThenRead shutdownDrive).stepsWhen 2 timely
      lateWriteEvents).map SdoSession.prog = some (.pure (some 0x0F)) := rfl
  obtain ⟨s, hs, hfin⟩ := Option.map_eq_some'.mp hfin
  have hrun := run_of_stepsWhen 2 hs
  exact ⟨s, hrun, hfin, timely_session_is_drive_run 2 writeThenRead shutdownDrive hrun hfin⟩

end Tracking

end ErobCanopen

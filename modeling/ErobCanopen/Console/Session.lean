/-
  ErobCanopen.Console.Session
  ───────────────────────────
  **WHAT `main` PUTS ON THE BUS, OVER EVERY RUN AND EVERY ANSWER.**

  `command_loop_inv` and `pp_main_inv` are the run lemmas of the command loop and of `main`:
  a property of the globals and the exchanges so far that `init_pp_mode` establishes and that
  every line keeps (one `CommandRun` case each) holds in every state a run reaches.  From
  them, and from what one line writes (`CommandRun.writesTo_target`, `_param`):

    * `pp_main_profile_written` — each profile parameter is the value last written to its
      object, whether the drive acknowledged it or not, and every target written is in range;
    * `process_command_sends` — which lines write which objects, and the exact value a line
      with an `int` argument sends;
    * `pp_main_motor_enabled` — `motor_enabled` is 1 from `init_pp_mode` on whatever the
      answers, and moves are issued whatever it is;
    * `pp_main_param_ne_zero` — a profile parameter reaches 0 only by 0 being written to its
      object, which only a `+` line does (`CommandRun.param_ne_zero`): `+` adds 100 modulo
      `2^32` with no bound (`command_loop_increase`);
    * `pp_main_writes_pp_objects` — the mode of operation is written once, with 1, and no
      object outside profile position mode is ever written;
    * `pp_main_quit` — nothing after the first `q` line is read, and the run then ends with
      the Shutdown write;
    * `rejected_commands_change_context`, `unchecked_target_argument` — a rejected or failed
      command still changes the context (`p 2000000` leaves the target out of range), and the
      argument of `p` is not checked (`p x` moves to 0, `p-5000` to 5000).

  Lines are given as the buffers `fgets` fills; a theorem over every list of them is a theorem
  over every prefix of every input, hence over every state the loop reaches.
-/
import ErobCanopen.Console.Command
import ErobCanopen.Drive.Handshake
namespace ErobCanopen

/-! ## §1. The objects of the profile parameters. -/

theorem ProfileParam.index_ne_target (q : ProfileParam) : q.index ≠ 0x607A := by
  cases q <;> decide

theorem ProfileParam.index_ne_cw (q : ProfileParam) : q.index ≠ 0x6040 := by
  cases q <;> decide

theorem ProfileParam.index_inj {q q' : ProfileParam} : q.index = q'.index ↔ q = q' := by
  cases q <;> cases q' <;> decide

@[simp] theorem Globals.param_with_target (g : Globals) (v : BitVec 32) (q : ProfileParam) :
    ({ g with current_target_position := v } : Globals).param q = g.param q := by
  cases q <;> rfl

@[simp] theorem Globals.param_with_running (g : Globals) (b : Bool) (q : ProfileParam) :
    ({ g with running := b } : Globals).param q = g.param q := by
  cases q <;> rfl

@[simp] theorem Globals.param_with_motor_enabled (g : Globals) (m : Int) (q : ProfileParam) :
    ({ g with motor_enabled := m } : Globals).param q = g.param q := by
  cases q <;> rfl

theorem writesTo_write_cons (i j : BitVec 16) (s : BitVec 8) (d : BitVec 32) (a : Answer)
    (t : List Exchange) :
    writesTo i ((.write j s d, a) :: t) = (if j = i then [d] else []) ++ writesTo i t := by
  by_cases h : j = i <;> simp only [writesTo_cons, Op.writeTo_write, h, if_true, if_false] <;> rfl

theorem writesTo_posRead_cons (i : BitVec 16) (b : Answer) (t : List Exchange) :
    writesTo i ((posRead, b) :: t) = writesTo i t := rfl

/-! ## §2. What one line writes. -/

section Line

variable {g g' : Globals} {buf : List Char} {t : List Exchange}

/-- A line that writes the target position is a `p` line, and the value it writes is in
    range. -/
theorem CommandRun.writesTo_target (h : CommandRun g buf g' t) :
    writesTo 0x607A t = [] ∨ ∃ tail, cut ['\n'] buf = 'p' :: tail ∧
      InRange (parsedValue ('p' :: tail)) ∧ writesTo 0x607A t = [parsedValue ('p' :: tail)] := by
  cases h with
  | move tail _ _ hc _ hm =>
    rw [hm.writesTo_target]
    split
    · exact .inr ⟨tail, hc, ‹_›, rfl⟩
    · exact .inl rfl
  | set q | increase q | decrease q =>
    exact .inl (by simp only [writesTo_write_cons, writesTo_posRead_cons, writesTo_nil,
      if_neg q.index_ne_target, List.nil_append])
  | stop => exact .inl rfl
  | show_param => exact .inl rfl
  | _ => exact .inl rfl

/-- The new value of a parameter assigned and written by a handler. -/
theorem writesTo_param_written (q q' : ProfileParam) (v : BitVec 32) (a : Answer)
    (rest : List Exchange) (hrest : writesTo q.index rest = []) :
    (writesTo q.index ((.write q'.index 0 v, a) :: rest) = [] ∧
        (g.setParam q' v).param q = g.param q) ∨
      (q' = q ∧
        writesTo q.index ((.write q'.index 0 v, a) :: rest) = [(g.setParam q' v).param q]) := by
  by_cases hq : q' = q
  · subst hq
    exact .inr ⟨rfl, by
      simp only [writesTo_write_cons, hrest, Globals.param_setParam, if_true]; rfl⟩
  · refine .inl ⟨?_, ?_⟩
    · simp only [writesTo_write_cons, hrest, ProfileParam.index_inj, hq, if_false]; rfl
    · simp only [Globals.param_setParam, Ne.symm hq, if_false]

/-- A line either leaves a parameter and its object alone, or writes the parameter's new value
    to its object once; only `v`/`a`/`d` lines and `+`/`-` lines do the latter. -/
theorem CommandRun.writesTo_param (h : CommandRun g buf g' t) (q : ProfileParam) :
    (writesTo q.index t = [] ∧ g'.param q = g.param q) ∨
      (writesTo q.index t = [g'.param q] ∧ ((∃ tail, cut ['\n'] buf = q.letter :: tail) ∨
        ∃ c rest, (c = '+' ∨ c = '-') ∧ cut ['\n'] buf = c :: q.letter :: rest)) := by
  cases h with
  | move _ _ _ _ _ hm =>
    exact .inl ⟨hm.writesTo_eq_nil q.index_ne_target.symm q.index_ne_cw.symm, by simp⟩
  | set q' tail a b hc =>
    rcases writesTo_param_written (g := g) q q' _ a [(posRead, b)] rfl with h | ⟨rfl, h⟩
    · exact .inl h
    · exact .inr ⟨h, .inl ⟨tail, hc⟩⟩
  | increase q' rest a hc =>
    rcases writesTo_param_written (g := g) q q' _ a [] rfl with h | ⟨rfl, h⟩
    · exact .inl h
    · exact .inr ⟨h, .inr ⟨'+', rest, .inl rfl, hc⟩⟩
  | decrease q' rest a hc =>
    rcases writesTo_param_written (g := g) q q' _ a [] rfl with h | ⟨rfl, h⟩
    · exact .inl h
    · exact .inr ⟨h, .inr ⟨'-', rest, .inr rfl, hc⟩⟩
  | stop =>
    exact .inl ⟨by simp only [cwWrite, writesTo_write_cons, writesTo_posRead_cons, writesTo_nil,
      if_neg q.index_ne_cw.symm, List.nil_append], rfl⟩
  | quit => exact .inl ⟨rfl, by simp⟩
  | empty | show_target | show_param | at_minimum | ignored => exact .inl ⟨rfl, rfl⟩

end Line

/-- `motor_enabled` is never touched by a line. -/
theorem CommandRun.motor_enabled {g g' : Globals} {buf : List Char} {t : List Exchange}
    (h : CommandRun g buf g' t) : g'.motor_enabled = g.motor_enabled := by
  cases h <;> simp


/-! ## §3. Whole runs of `main`. -/

/-- The run lemma of the command loop: a property of the globals and the exchanges so far that
    every line keeps holds after any sequence of lines. -/
theorem command_loop_inv (P : Globals → List Exchange → Prop)
    (step : ∀ {g g' buf t t'}, P g t → CommandRun g buf g' t' → P g' (t ++ t')) :
    ∀ (lines : List (List Char)) {g g' : Globals} {t t' : List Exchange}, P g t →
      Prog.Path (command_loop g lines) g' t' → P g' (t ++ t')
  | [], g, g', t, t', hP, hp => by
    obtain ⟨rfl, rfl⟩ := hp.pure_inv
    simpa using hP
  | buf :: rest, g, g', t, t', hP, hp => by
    unfold command_loop at hp
    split at hp
    · obtain ⟨g1, t1, t2, rfl, h1, h2⟩ := hp.bind_inv
      simpa using command_loop_inv P step rest (step hP (process_command_path h1)) h2
    · obtain ⟨rfl, rfl⟩ := hp.pure_inv
      simpa using hP

/-- The requests of `init_pp_mode`, in order. -/
def initOps (current_motor_id : BitVec 8) : List Op :=
  [.nmt 0x02 current_motor_id, .nmt 0x82 current_motor_id, .nmt 0x01 current_motor_id,
    .write 0x6060 0 0x01, .write 0x6081 0 5566, .write 0x6083 0 5566, .write 0x6084 0 5566,
    cwWrite 0x80, cwWrite 0x06, cwWrite 0x07, cwWrite 0x0F]

/-- `init_pp_mode` makes its eleven requests whatever their answers, and sets `motor_enabled`. -/
theorem init_pp_mode_path {node : BitVec 8} {g g' : Globals} {t : List Exchange}
    (hp : Prog.Path (init_pp_mode node g) g' t) :
    g' = { g with motor_enabled := 1 } ∧ t.map Prod.fst = initOps node := by
  have e : init_pp_mode node g = Prog.calls (initOps node) (.pure { g with motor_enabled := 1 }) :=
    rfl
  obtain ⟨t₁, t₂, rfl, hops, hk⟩ := Prog.Path.calls_inv (e ▸ hp)
  obtain ⟨rfl, rfl⟩ := hk.pure_inv
  simpa using hops

/-- Every path of `main`: `init_pp_mode`'s eleven requests, the banner's position read, a path
    of the command loop from the state `init_pp_mode` leaves, and the final Shutdown write when
    `q` ended the loop. -/
theorem pp_main_path {node : BitVec 8} {lines : List (List Char)} {g' : Globals}
    {t : List Exchange} (hp : Prog.Path (pp_main node lines) g' t) :
    ∃ t₁ b t₂ t₃, t = t₁ ++ (posRead, b) :: t₂ ++ t₃ ∧ t₁.map Prod.fst = initOps node ∧
      Prog.Path (command_loop { Globals.initial with motor_enabled := 1 } lines) g' t₂ ∧
      (t₃ = [] ∨ ∃ a, t₃ = [(cwWrite 0x06, a)]) := by
  obtain ⟨g1, t1, t2, rfl, h1, h2⟩ := hp.bind_inv
  obtain ⟨rfl, hops⟩ := init_pp_mode_path h1
  simp only [print_command_help, read_sdo, Prog.call_bind, Prog.pure_eq, Prog.pure_bind] at h2
  obtain ⟨b, t3, rfl, h3⟩ := h2.call_inv
  obtain ⟨g4, t4, t5, rfl, h4, h5⟩ := h3.bind_inv
  split at h5
  · obtain ⟨rfl, rfl⟩ := h5.pure_inv
    exact ⟨t1, b, t4, [], by simp [posRead], hops, h4, .inl rfl⟩
  · simp only [write_sdo, Prog.call_bind] at h5
    obtain ⟨a, t6, rfl, h6⟩ := h5.call_inv
    obtain ⟨rfl, rfl⟩ := h6.pure_inv
    exact ⟨t1, b, t4, _, by simp [posRead, cwWrite], hops, h4, .inr ⟨a, rfl⟩⟩

/-- The run lemma of `main`: a property that holds after `init_pp_mode`, and that the banner's
    position read, every line and the final Shutdown write keep, holds at the end of every run. -/
theorem pp_main_inv (P : Globals → List Exchange → Prop) (node : BitVec 8)
    (init : ∀ t, t.map Prod.fst = initOps node →
      P { Globals.initial with motor_enabled := 1 } t)
    (keep : ∀ {g t} (e : Exchange), e.1 = posRead ∨ e.1 = cwWrite 0x06 → P g t →
      P g (t ++ [e]))
    (step : ∀ {g g' buf t t'}, P g t → CommandRun g buf g' t' → P g' (t ++ t'))
    {lines : List (List Char)} {g' : Globals} {t : List Exchange}
    (hp : Prog.Path (pp_main node lines) g' t) : P g' t := by
  obtain ⟨t₁, b, t₂, t₃, rfl, hops, hloop, hend⟩ := pp_main_path hp
  have hP := command_loop_inv P step lines (keep (posRead, b) (.inl rfl) (init t₁ hops)) hloop
  rcases hend with rfl | ⟨a, rfl⟩
  · simpa using hP
  · simpa using keep (cwWrite 0x06, a) (.inr rfl) hP

/-! ## §4. The profile parameters are the values last written. -/

/-- The banner's position read and the final Shutdown write leave every other object alone. -/
theorem writesTo_keep {e : Exchange} (he : e.1 = posRead ∨ e.1 = cwWrite 0x06) {i : BitVec 16}
    (hi : i ≠ 0x6040) : writesTo i [e] = [] := by
  obtain ⟨op, a⟩ := e
  rcases he with rfl | rfl
  · rfl
  · simp only [cwWrite, writesTo_write_cons, writesTo_nil, if_neg hi.symm, List.nil_append]

/-- In every state `main` reaches, whatever the answers: each profile parameter is the value
    last written to its object, acknowledged or not, and every target written is in range. -/
theorem pp_main_profile_written (node : BitVec 8) (lines : List (List Char)) (env : Prog.Env)
    (h : List Exchange) :
    let x := (pp_main node lines).run env h
    (∀ q : ProfileParam, (writesTo q.index x.2).getLast? = some (x.1.param q)) ∧
      ∀ v ∈ writesTo 0x607A x.2, InRange v := by
  refine pp_main_inv (fun g t =>
      (∀ q : ProfileParam, (writesTo q.index t).getLast? = some (g.param q)) ∧
        ∀ v ∈ writesTo 0x607A t, InRange v) node ?init ?keep ?step (Prog.path_run env _ h)
  case init =>
    intro t hops
    have h0 : (initOps node).filterMap (Op.writeTo 0x607A) = [] := rfl
    simp only [writesTo, hops, h0, List.not_mem_nil, false_imp_iff, implies_true, and_true]
    intro q
    cases q <;> rfl
  case keep =>
    rintro g t e he ⟨hq, hv⟩
    refine ⟨fun q => ?_, fun v hv' => ?_⟩
    · rw [writesTo_append, writesTo_keep he q.index_ne_cw, List.append_nil, hq]
    · rw [writesTo_append, writesTo_keep he (by decide), List.append_nil] at hv'
      exact hv v hv'
  case step =>
    rintro g g' buf t t' ⟨hq, hv⟩ hrun
    refine ⟨fun q => ?_, fun v hv' => ?_⟩
    · rcases hrun.writesTo_param q with ⟨h1, h2⟩ | ⟨h1, -⟩
      · rw [writesTo_append, h1, List.append_nil, h2, hq]
      · rw [writesTo_append, h1, List.getLast?_append]; rfl
    · rw [writesTo_append, List.mem_append] at hv'
      rcases hv' with hv' | hv'
      · exact hv v hv'
      · rcases hrun.writesTo_target with h1 | ⟨tail, -, hin, h1⟩
        · exact absurd (h1 ▸ hv') (List.not_mem_nil v)
        · rw [h1, List.mem_singleton] at hv'
          exact hv' ▸ hin

/-- A rejected or failed command changes `DriveContext`.  `p 2000000`, whatever the answers:
    the target position becomes 2000000, outside `[MIN_POSITION, MAX_POSITION]`, and nothing
    is written to `0x607A`.  `v 100` with every request failing: the velocity becomes 100
    although its write failed. -/
theorem rejected_commands_change_context (env : Prog.Env) :
    let x := (pp_main 2 ["p 2000000".toList]).run env []
    let y := (pp_main 2 ["v 100".toList]).run (fun _ _ => none) []
    (x.1.current_target_position = 2000000 ∧ ¬ InRange x.1.current_target_position ∧
        writesTo 0x607A x.2 = []) ∧
      y.1.current_profile_velocity = 100 ∧ (Op.write 0x6081 0 100, none) ∈ y.2 ∧
        ∀ e ∈ y.2, e.2 = none := by
  have hloop : command_loop { Globals.initial with motor_enabled := 1 } ["p 2000000".toList] =
      .pure { Globals.initial with motor_enabled := 1, current_target_position := 2000000 } :=
    rfl
  obtain ⟨t₁, b, t₂, t₃, he, hops, hl, hend⟩ :=
    pp_main_path (Prog.path_run env (pp_main 2 ["p 2000000".toList]) [])
  rw [hloop] at hl
  obtain ⟨hg, rfl⟩ := hl.pure_inv
  have h₁ : writesTo 0x607A t₁ = [] := by
    rw [writesTo, hops]
    rfl
  have h₃ : writesTo 0x607A t₃ = [] := by rcases hend with rfl | ⟨_, rfl⟩ <;> rfl
  refine ⟨⟨by rw [hg], by rw [hg]; decide, ?_⟩, by decide⟩
  rw [he, writesTo_append, writesTo_append, h₁, h₃]
  rfl

/-! ## §5. The values a line sends. -/

/-- The argument `sscanf(input + 2, "%d", &parsed_value)` reads in full: a decimal literal,
    after optional white space and sign, whose value `n` is an `int`. -/
def ScansInt (s : List Char) (n : Int) : Prop :=
  ∃ neg m rest, scanNumber 10 s = some (neg, m, rest) ∧ n = (if neg then -(m : Int) else m) ∧
    -2 ^ 31 ≤ n ∧ n < 2 ^ 31

theorem ne_nil_of_scanNumber {base : Nat} {s : List Char} {r : Bool × Nat × List Char}
    (h : scanNumber base s = some r) : s ≠ [] := by
  rintro rfl
  cases h

theorem ScansInt.range {s : List Char} {n : Int} (h : ScansInt s n) :
    -2 ^ 31 ≤ n ∧ n < 2 ^ 31 := by
  obtain ⟨_, _, _, -, -, h1, h2⟩ := h
  exact ⟨h1, h2⟩

theorem ScansInt.ne_nil {s : List Char} {n : Int} (h : ScansInt s n) : s ≠ [] := by
  obtain ⟨_, _, _, hs, -⟩ := h
  exact ne_nil_of_scanNumber hs

theorem toInt_ofInt_of_range {n : Int} (h1 : -2 ^ 31 ≤ n) (h2 : n < 2 ^ 31) :
    (BitVec.ofInt 32 n).toInt = n := by
  rw [BitVec.toInt_ofInt, Int.bmod_def]
  split <;> omega

/-- A literal read in full is the value `main` works with. -/
theorem parsedValue_of_scansInt {rest : List Char} {n : Int} (h : ScansInt rest n) (c b : Char) :
    parsedValue (c :: b :: rest) = BitVec.ofInt 32 n := by
  obtain ⟨neg, m, r, hs, rfl, h1, h2⟩ := h
  have hlen : 2 < (c :: b :: rest).length := by
    simpa using List.length_pos.mpr (ne_nil_of_scanNumber hs)
  simp only [parsedValue, hlen, if_true, List.drop, scan_d, hs, Option.map_some', Option.getD_some]
  congr 1
  cases neg <;> simp only [strtol, if_true, if_false, Bool.false_eq_true] at * <;> omega

theorem process_command_of_move_line {g : Globals} {buf tail : List Char}
    (hcut : cut ['\n'] buf = 'p' :: tail) (hlen : 1 < tail.length) :
    process_command g buf = (execute_position_move (parsedValue ('p' :: tail)) >>= fun _ =>
      pure { g with current_target_position := parsedValue ('p' :: tail) }) := by
  simp only [process_command, hcut]
  rw [if_pos (by simp; omega)]

theorem process_command_of_param_line {g : Globals} {buf tail : List Char} {q : ProfileParam}
    (hcut : cut ['\n'] buf = q.letter :: tail) :
    process_command g buf = set_profile_parameter q g (parsedValue (q.letter :: tail)) := by
  cases q <;> simp only [process_command, hcut, ProfileParam.letter]

theorem set_profile_parameter_writesTo (q : ProfileParam) (g : Globals) (v : BitVec 32)
    (env : Prog.Env) (h : List Exchange) :
    writesTo q.index ((set_profile_parameter q g v).run env h).2 =
      if 0 < v.toInt then [v] else [] := by
  unfold set_profile_parameter
  split <;> simp [write_sdo, print_command_help, read_sdo, Prog.pure_eq, Prog.run_call,
    writesTo_write_cons, writesTo_posRead_cons]

/-- A `p` line whose argument is an `int` literal writes it to the target exactly when it is
    in range. -/
theorem process_command_target_line {g : Globals} {buf rest : List Char} {n : Int}
    (hcut : cut ['\n'] buf = 'p' :: ' ' :: rest) (hn : ScansInt rest n) (env : Prog.Env)
    (h : List Exchange) :
    writesTo 0x607A ((process_command g buf).run env h).2 =
      if MIN_POSITION ≤ n ∧ n ≤ MAX_POSITION then [BitVec.ofInt 32 n] else [] := by
  have hlen : 1 < (' ' :: rest).length := by
    simpa using List.length_pos.mpr hn.ne_nil
  have hv := toInt_ofInt_of_range hn.range.1 hn.range.2
  rw [process_command_of_move_line hcut hlen, Prog.run_bind, writesTo_append,
    (execute_position_move_path (Prog.path_run _ _ _)).writesTo_target,
    parsedValue_of_scansInt hn]
  simp [InRange, hv, Prog.pure_eq]

/-- A `v`/`a`/`d` line whose argument is an `int` literal writes it to the parameter's object
    exactly when it is positive. -/
theorem process_command_param_line {g : Globals} {buf rest : List Char} {n : Int}
    {q : ProfileParam} (hcut : cut ['\n'] buf = q.letter :: ' ' :: rest) (hn : ScansInt rest n)
    (env : Prog.Env) (h : List Exchange) :
    writesTo q.index ((process_command g buf).run env h).2 =
      if 0 < n then [BitVec.ofInt 32 n] else [] := by
  rw [process_command_of_param_line hcut, set_profile_parameter_writesTo,
    parsedValue_of_scansInt hn, toInt_ofInt_of_range hn.range.1 hn.range.2]

/-- What one line sends, for every state and every answer: only a `p` line writes the target
    position, only a `v`/`a`/`d` line or a `+`/`-` line naming the parameter writes a profile
    object, and a `p`, `v`, `a` or `d` line whose argument after the blank is an `int` literal
    `n` sends exactly `n` when it is admitted and nothing otherwise. -/
theorem process_command_sends (g : Globals) (buf : List Char) (env : Prog.Env)
    (h : List Exchange) :
    let t := ((process_command g buf).run env h).2
    (writesTo 0x607A t ≠ [] → ∃ tail, cut ['\n'] buf = 'p' :: tail) ∧
    (∀ q : ProfileParam, writesTo q.index t ≠ [] →
      (∃ tail, cut ['\n'] buf = q.letter :: tail) ∨
        ∃ c rest, (c = '+' ∨ c = '-') ∧ cut ['\n'] buf = c :: q.letter :: rest) ∧
    ∀ (rest : List Char) (n : Int), ScansInt rest n →
      (cut ['\n'] buf = 'p' :: ' ' :: rest →
        writesTo 0x607A t =
          if MIN_POSITION ≤ n ∧ n ≤ MAX_POSITION then [BitVec.ofInt 32 n] else []) ∧
      ∀ q : ProfileParam, cut ['\n'] buf = q.letter :: ' ' :: rest →
        writesTo q.index t = if 0 < n then [BitVec.ofInt 32 n] else [] := by
  have hrun := process_command_path (Prog.path_run env (process_command g buf) h)
  refine ⟨fun hne => ?_, fun q hne => ?_, fun rest n hn =>
    ⟨fun hcut => process_command_target_line hcut hn env h,
      fun q hcut => process_command_param_line hcut hn env h⟩⟩
  · rcases hrun.writesTo_target with h1 | ⟨tail, hc, -⟩
    · exact absurd h1 hne
    · exact ⟨tail, hc⟩
  · rcases hrun.writesTo_param q with ⟨h1, -⟩ | ⟨-, hl⟩
    · exact absurd h1 hne
    · exact hl

/-- `+v` is not a `v` line, yet it sends a velocity: 5566 + 100. -/
theorem plus_v_sends_velocity :
    writesTo 0x6081 ((pp_main 2 ["+v".toList]).run (fun _ _ => some 0) []).2 = [5566, 5666] := by
  decide

/-- A `p` line longer than two characters writes to the target whatever value `sscanf` left in
    `parsed_value`, when it is in range. -/
theorem process_command_move_writes {g : Globals} {buf : List Char} (tail : List Char)
    (hcut : cut ['\n'] buf = 'p' :: tail) (hlen : 1 < tail.length) (env : Prog.Env)
    (h : List Exchange) :
    writesTo 0x607A ((process_command g buf).run env h).2 =
      if InRange (parsedValue ('p' :: tail)) then [parsedValue ('p' :: tail)] else [] := by
  rw [process_command_of_move_line hcut hlen, Prog.run_bind, writesTo_append,
    (execute_position_move_path (Prog.path_run _ _ _)).writesTo_target]
  simp [Prog.pure_eq]

/-- From any state and whatever the answers, the argument of `p` is not checked: `p x` writes 0
    to the target (no number is read and `parsed_value` keeps 0), `p-5000` writes 5000 (`sscanf`
    starts after the `-`), and `p 4294967396` writes 100 (`strtol`'s value cut to `int`). -/
theorem unchecked_target_argument (g : Globals) (env : Prog.Env) (h : List Exchange) :
    writesTo 0x607A ((process_command g "p x".toList).run env h).2 = [0] ∧
      writesTo 0x607A ((process_command g "p-5000".toList).run env h).2 = [5000] ∧
      writesTo 0x607A ((process_command g "p 4294967396".toList).run env h).2 = [100] :=
  ⟨(process_command_move_writes " x".toList (by decide) (by decide) env h).trans (by decide),
    (process_command_move_writes "-5000".toList (by decide) (by decide) env h).trans (by decide),
    (process_command_move_writes " 4294967396".toList (by decide) (by decide) env h).trans
      (by decide)⟩

/-! ## §6. `motor_enabled`. -/

/-- In every state `main` reaches, whatever the answers, `motor_enabled` is 1. -/
theorem pp_main_motor_enabled_eq (node : BitVec 8) (lines : List (List Char)) (env : Prog.Env)
    (h : List Exchange) : ((pp_main node lines).run env h).1.motor_enabled = 1 :=
  pp_main_inv (fun g _ => g.motor_enabled = 1) node (fun _ _ => rfl) (fun _ _ hg => hg)
    (fun hg hrun => hrun.motor_enabled.trans hg) (Prog.path_run env _ h)

/-- `motor_enabled` is 1 in every state `main` reaches, whatever the answers to the enable
    writes, and no move depends on it: in every state, whatever was sent before, a `p` line
    whose argument is an in-range `int` literal writes it to the target position. -/
theorem pp_main_motor_enabled (node : BitVec 8) (lines : List (List Char)) (env : Prog.Env)
    (h : List Exchange) :
    ((pp_main node lines).run env h).1.motor_enabled = 1 ∧
      ∀ (g : Globals) (buf rest : List Char) (n : Int) (h' : List Exchange), ScansInt rest n →
        cut ['\n'] buf = 'p' :: ' ' :: rest → MIN_POSITION ≤ n → n ≤ MAX_POSITION →
        writesTo 0x607A ((process_command g buf).run env h').2 = [BitVec.ofInt 32 n] :=
  ⟨pp_main_motor_enabled_eq node lines env h, fun g _ _ _ h' hn hcut h1 h2 => by
    rw [process_command_target_line hcut hn env h', if_pos ⟨h1, h2⟩]⟩

/-- Every request failing, `motor_enabled` is still 1 and a move is put on the bus; with every
    request answered, a move follows the Shutdown of `s`. -/
theorem move_without_enable :
    ((pp_main 2 ["p 1000".toList]).run (fun _ _ => none) []).1.motor_enabled = 1 ∧
      (∀ e ∈ ((pp_main 2 ["p 1000".toList]).run (fun _ _ => none) []).2, e.2 = none) ∧
      writesTo 0x607A ((pp_main 2 ["p 1000".toList]).run (fun _ _ => none) []).2 = [1000] ∧
      ((pp_main 2 ["s".toList, "p 1000".toList]).run (fun _ _ => some 0) []).1.motor_enabled = 1 ∧
      writesTo 0x6040 ((pp_main 2 ["s".toList, "p 1000".toList]).run (fun _ _ => some 0) []).2 =
        [0x80, 0x06, 0x07, 0x0F, 0x06, 0x10] ∧
      writesTo 0x607A ((pp_main 2 ["s".toList, "p 1000".toList]).run (fun _ _ => some 0) []).2 =
        [1000] := by
  decide

/-! ## §7. The profile parameters and `+`. -/

theorem Globals.setParam_param_self (g : Globals) (q : ProfileParam) :
    g.setParam q (g.param q) = g := by
  cases q <;> rfl

theorem Globals.setParam_setParam (g : Globals) (q : ProfileParam) (v w : BitVec 32) :
    (g.setParam q v).setParam q w = g.setParam q w := by
  cases q <;> rfl

/-- A line keeps a non-zero profile parameter non-zero, except a `+` line on it at
    `2^32 - 100`, which wraps it to 0 and writes 0: `v`/`a`/`d` admit only positive values and
    `-` refuses at or below 100, but `+` has no bound. -/
theorem CommandRun.param_ne_zero {g g' : Globals} {buf : List Char} {t : List Exchange}
    (h : CommandRun g buf g' t) (q : ProfileParam) (hq : g.param q ≠ 0) :
    g'.param q ≠ 0 ∨ (g.param q = 0xFFFFFF9C ∧ writesTo q.index t = [0] ∧
      ∃ rest, cut ['\n'] buf = '+' :: q.letter :: rest) := by
  cases h with
  | set q' tail a b hc hpos =>
    refine .inl ?_
    rw [Globals.param_setParam]
    split
    · rintro h0
      rw [h0] at hpos
      exact absurd hpos (by decide)
    · exact hq
  | increase q' rest a hc =>
    rw [Globals.param_setParam]
    split
    · subst q'
      by_cases h0 : g.param q + 100 = 0
      · refine .inr ⟨by bv_omega, ?_, rest, hc⟩
        rw [writesTo_write_cons, if_pos rfl, h0]
        rfl
      · exact .inl h0
    · exact .inl hq
  | decrease q' rest a hc hgt =>
    refine .inl ?_
    rw [Globals.param_setParam]
    split
    · subst q'
      bv_omega
    · exact hq
  | move => exact .inl (by simpa using hq)
  | quit => exact .inl (by simpa using hq)
  | empty | show_target | show_param | at_minimum | stop | ignored => exact .inl hq

/-- In every state `main` reaches, whatever the answers, each profile parameter is non-zero
    unless 0 has been written to its object, which only a `+` line does. -/
theorem pp_main_param_ne_zero (node : BitVec 8) (lines : List (List Char)) (env : Prog.Env)
    (h : List Exchange) (q : ProfileParam) :
    let x := (pp_main node lines).run env h
    x.1.param q ≠ 0 ∨ 0 ∈ writesTo q.index x.2 := by
  refine pp_main_inv (fun g t => g.param q ≠ 0 ∨ 0 ∈ writesTo q.index t) node
    (fun _ _ => .inl (by cases q <;> decide)) ?keep ?step (Prog.path_run env _ h)
  case keep =>
    intro g t e _ hP
    rw [writesTo_append]
    exact hP.imp id (List.mem_append_left _)
  case step =>
    rintro g g' buf t t' (hq | hz) hrun
    · rw [writesTo_append]
      rcases hrun.param_ne_zero q hq with h' | ⟨-, hw, -⟩
      · exact .inl h'
      · exact .inr (List.mem_append_right _ (hw ▸ List.mem_singleton_self 0))
    · rw [writesTo_append]
      exact .inr (List.mem_append_left _ hz)

theorem process_command_plus (q : ProfileParam) (g : Globals) :
    process_command g ['+', q.letter] = increase_profile_parameter q g := by
  cases q <;> rfl

theorem add_hundred_ofNat (x : BitVec 32) (n : Nat) :
    x + 100 + BitVec.ofNat 32 (100 * n) = x + BitVec.ofNat 32 (100 * (n + 1)) := by
  rw [BitVec.add_assoc, Nat.mul_succ, BitVec.ofNat_add, BitVec.add_comm (BitVec.ofNat 32 _)]
  rfl

/-- `k` lines `+x`, whatever the answers: the parameter grows by `100 k` modulo `2^32`, and
    each line writes the value it reached. -/
theorem command_loop_increase (q : ProfileParam) :
    ∀ (k : Nat) {g g' : Globals} {t : List Exchange}, g.running = true →
      Prog.Path (command_loop g (List.replicate k ['+', q.letter])) g' t →
      g' = g.setParam q (g.param q + BitVec.ofNat 32 (100 * k)) ∧
        writesTo q.index t =
          (List.range k).map fun i => g.param q + BitVec.ofNat 32 (100 * (i + 1))
  | 0, g, g', t, _, hp => by
    obtain ⟨rfl, rfl⟩ := hp.pure_inv
    refine ⟨?_, rfl⟩
    rw [Nat.mul_zero, BitVec.add_zero, Globals.setParam_param_self]
  | k + 1, g, g', t, hrun, hp => by
    rw [List.replicate_succ, command_loop, if_pos hrun, process_command_plus] at hp
    obtain ⟨g1, t1, t2, rfl, h1, h2⟩ := hp.bind_inv
    simp only [increase_profile_parameter, write_sdo, Prog.call_bind, Prog.pure_bind] at h1
    obtain ⟨a, t3, rfl, h3⟩ := h1.call_inv
    obtain ⟨rfl, rfl⟩ := h3.pure_inv
    obtain ⟨rfl, hw⟩ := command_loop_increase q k (by rw [Globals.setParam_running]; exact hrun) h2
    refine ⟨by simp only [Globals.param_setParam, if_true, Globals.setParam_setParam,
      add_hundred_ofNat], ?_⟩
    rw [List.cons_append, List.nil_append, writesTo_write_cons, if_pos rfl, hw,
      List.range_succ_eq_map, List.map_cons, List.map_map]
    simp only [Globals.param_setParam, if_true, add_hundred_ofNat, Function.comp_def,
      Nat.succ_eq_add_one, List.singleton_append]
    rfl

/-- `v 2147483596`, then 21474837 lines `+v`, whatever the answers: the velocity wraps to 0 and
    the last value written to `0x6081` is 0. -/
theorem velocity_wraps_to_zero (env : Prog.Env) :
    let x := (pp_main 2 ("v 2147483596".toList :: List.replicate 21474837 "+v".toList)).run env []
    x.1.current_profile_velocity = 0 ∧ (writesTo 0x6081 x.2).getLast? = some 0 := by
  have hp := Prog.path_run env
    (pp_main 2 ("v 2147483596".toList :: List.replicate 21474837 "+v".toList)) []
  generalize (pp_main 2 _).run env [] = x at hp ⊢
  obtain ⟨g', t⟩ := x
  obtain ⟨t₁, b, t₂, t₃, rfl, -, hloop, hend⟩ := pp_main_path hp
  have hcut : cut ['\n'] "v 2147483596".toList =
      ProfileParam.velocity.letter :: " 2147483596".toList := by decide
  have hv : parsedValue (ProfileParam.velocity.letter :: " 2147483596".toList) = 2147483596 := by
    decide
  rw [command_loop, if_pos (by rfl), process_command_of_param_line hcut, hv] at hloop
  obtain ⟨g1, t21, t22, rfl, h1, h2⟩ := hloop.bind_inv
  unfold set_profile_parameter at h1
  rw [if_pos (by decide)] at h1
  simp only [write_sdo, print_command_help, read_sdo, Prog.call_bind, Prog.pure_bind] at h1
  obtain ⟨a, t4, rfl, h4⟩ := h1.call_inv
  obtain ⟨c, t5, rfl, h5⟩ := h4.call_inv
  obtain ⟨rfl, rfl⟩ := h5.pure_inv
  obtain ⟨rfl, hw⟩ := command_loop_increase .velocity 21474837 rfl h2
  refine ⟨by dsimp only; decide, ?_⟩
  have h3 : writesTo 0x6081 t₃ = [] := by rcases hend with rfl | ⟨_, rfl⟩ <;> rfl
  have hw' : writesTo 0x6081 t22 = _ := hw
  rw [writesTo_append, h3, List.append_nil, ← List.cons_append, ← List.append_assoc,
    writesTo_append, List.getLast?_append, hw', List.getLast?_map, List.getLast?_range,
    if_neg (by decide), Option.map_some', Option.or_some]
  decide

/-! ## §8. The objects `main` writes. -/

/-- A line writes no object but the target position, the control word and the three profile
    parameters. -/
theorem CommandRun.writesTo_other {g g' : Globals} {buf : List Char} {t : List Exchange}
    (h : CommandRun g buf g' t) {i : BitVec 16} (h1 : (0x6040 : BitVec 16) ≠ i)
    (h2 : (0x607A : BitVec 16) ≠ i) (hq : ∀ q : ProfileParam, q.index ≠ i) :
    writesTo i t = [] := by
  cases h with
  | move _ _ _ _ _ hm => exact hm.writesTo_eq_nil h2 h1
  | set q =>
    simp only [writesTo_write_cons, writesTo_posRead_cons, writesTo_nil, if_neg (hq q),
      List.nil_append]
  | increase q | decrease q =>
    simp only [writesTo_write_cons, writesTo_nil, if_neg (hq q), List.nil_append]
  | stop =>
    simp only [cwWrite, writesTo_write_cons, writesTo_posRead_cons, writesTo_nil, if_neg h1,
      List.nil_append]
  | empty | show_target | show_param | at_minimum | quit | ignored => rfl

/-- On every path of `main`, an object other than the control word, the target position and
    the profile parameters is written only if it is the mode of operation, once, with 1. -/
theorem pp_main_writesTo_other {node : BitVec 8} {lines : List (List Char)} {g' : Globals}
    {t : List Exchange} (hp : Prog.Path (pp_main node lines) g' t) :
    ∀ i : BitVec 16, (0x6040 : BitVec 16) ≠ i → (0x607A : BitVec 16) ≠ i →
      (∀ q : ProfileParam, q.index ≠ i) → writesTo i t = if i = 0x6060 then [1] else [] := by
  refine pp_main_inv (fun _ t => ∀ i : BitVec 16, (0x6040 : BitVec 16) ≠ i →
      (0x607A : BitVec 16) ≠ i → (∀ q : ProfileParam, q.index ≠ i) →
        writesTo i t = if i = 0x6060 then [1] else []) node ?init ?keep ?step hp
  case init =>
    intro t hops i h1 h2 hq
    have hv := hq .velocity
    have ha := hq .acceleration
    have hd := hq .deceleration
    simp only [ProfileParam.index] at hv ha hd
    simp only [writesTo, hops, initOps, cwWrite, List.filterMap_cons, Op.writeTo_nmt,
      Op.writeTo_write, if_neg hv, if_neg ha, if_neg hd, if_neg h1, List.filterMap_nil]
    by_cases h6 : i = 0x6060
    · subst h6; rfl
    · rw [if_neg (Ne.symm h6), if_neg h6]
  case keep =>
    intro g t e he hP i h1 h2 hq
    rw [writesTo_append, writesTo_keep he (Ne.symm h1), List.append_nil]
    exact hP i h1 h2 hq
  case step =>
    intro g g' buf t t' hP hrun i h1 h2 hq
    rw [writesTo_append, hP i h1 h2 hq, hrun.writesTo_other h1 h2 hq, List.append_nil]

/-- Whatever the input and the answers, `main` sets the mode of operation once, to profile
    position mode (1), in `init_pp_mode`, and writes no object besides the mode, the control
    word, the target position and the three profile parameters. -/
theorem pp_main_writes_pp_objects (node : BitVec 8) (lines : List (List Char)) (env : Prog.Env)
    (h : List Exchange) :
    let x := (pp_main node lines).run env h
    writesTo 0x6060 x.2 = [1] ∧
      ∀ i : BitVec 16, i ∉ [0x6040, 0x6060, 0x607A, 0x6081, 0x6083, 0x6084] → writesTo i x.2 = [] := by
  have hP := pp_main_writesTo_other (Prog.path_run env (pp_main node lines) h)
  refine ⟨by simpa using hP 0x6060 (by decide) (by decide) (fun q => by cases q <;> decide),
    fun i hi => ?_⟩
  simp only [List.mem_cons, List.not_mem_nil, or_false, not_or] at hi
  obtain ⟨h1, h6, h2, hv, ha, hd⟩ := hi
  rw [hP i (Ne.symm h1) (Ne.symm h2) (fun q => by cases q <;> exact Ne.symm ‹_›), if_neg h6]

/-- A move, a velocity and a stop, every request answered: `0x6060` was written once, with 1,
    and the store-parameters object `0x1010` never. -/
theorem pp_main_leaves_store_alone :
    (0x1010 : BitVec 16) ∉ [0x6040, 0x6060, 0x607A, 0x6081, 0x6083, 0x6084] ∧
      writesTo 0x1010
          ((pp_main 2 ["p 1000".toList, "v 200".toList, "s".toList]).run (fun _ _ => some 0) []).2 =
        [] ∧
      writesTo 0x6060
          ((pp_main 2 ["p 1000".toList, "v 200".toList, "s".toList]).run (fun _ _ => some 0) []).2 =
        [1] :=
  have hw := pp_main_writes_pp_objects 2 ["p 1000".toList, "v 200".toList, "s".toList]
    (fun _ _ => some 0) []
  ⟨by decide, hw.2 0x1010 (by decide), hw.1⟩

/-! ## §9. `q` ends the session. -/

theorem process_command_of_quit {g : Globals} {buf tail : List Char}
    (hcut : cut ['\n'] buf = 'q' :: tail) :
    process_command g buf = .pure { g with running := false } := by
  simp only [process_command, hcut]
  rfl

theorem command_loop_stopped {g : Globals} (hg : g.running = false) :
    ∀ lines, command_loop g lines = .pure g
  | [] => rfl
  | _ :: _ => by rw [command_loop, if_neg (by simp [hg])]; rfl

/-- The lines after the first `q` line are never read: the loop over them is the loop over
    the lines up to it. -/
theorem command_loop_quit {qline : List Char} (hq : ∃ tail, cut ['\n'] qline = 'q' :: tail)
    (post : List (List Char)) : ∀ (pre : List (List Char)) (g : Globals),
      command_loop g (pre ++ qline :: post) = command_loop g (pre ++ [qline])
  | [], g => by
    obtain ⟨tail, hcut⟩ := hq
    have hs : ({ g with running := false } : Globals).running = false := rfl
    simp only [List.nil_append, command_loop, process_command_of_quit hcut, Prog.pure_bind,
      command_loop_stopped hs, Prog.pure_eq]
  | buf :: pre, g => by
    rw [List.cons_append, List.cons_append, command_loop, command_loop]
    simp only [command_loop_quit hq post pre]

/-- A loop over lines ending with a `q` line ends with `running` cleared. -/
theorem command_loop_quit_running {qline : List Char}
    (hq : ∃ tail, cut ['\n'] qline = 'q' :: tail) :
    ∀ (pre : List (List Char)) {g g' : Globals} {t : List Exchange},
      Prog.Path (command_loop g (pre ++ [qline])) g' t → g'.running = false
  | [], g, g', t, hp => by
    obtain ⟨tail, hcut⟩ := hq
    rw [List.nil_append, command_loop] at hp
    split at hp
    · rw [process_command_of_quit hcut, Prog.pure_bind, command_loop] at hp
      rw [hp.pure_inv.1]
    · rename_i hr
      rw [hp.pure_inv.1]
      simpa using hr
  | buf :: pre, g, g', t, hp => by
    rw [List.cons_append, command_loop] at hp
    split at hp
    · obtain ⟨g1, t1, t2, rfl, -, h2⟩ := hp.bind_inv
      exact command_loop_quit_running hq pre h2
    · rename_i hr
      rw [hp.pure_inv.1]
      simpa using hr

/-- A run of `main` over lines ending with a `q` line ends with the Shutdown write. -/
theorem pp_main_quit_path {node : BitVec 8} {pre : List (List Char)} {qline : List Char}
    (hq : ∃ tail, cut ['\n'] qline = 'q' :: tail) {g' : Globals} {t : List Exchange}
    (hp : Prog.Path (pp_main node (pre ++ [qline])) g' t) :
    ∃ t' a, t = t' ++ [(cwWrite 0x06, a)] := by
  obtain ⟨g1, t1, t2, rfl, -, h2⟩ := hp.bind_inv
  simp only [print_command_help, read_sdo, Prog.call_bind, Prog.pure_eq, Prog.pure_bind] at h2
  obtain ⟨b, t3, rfl, h3⟩ := h2.call_inv
  obtain ⟨g4, t4, t5, rfl, h4, h5⟩ := h3.bind_inv
  rw [command_loop_quit_running hq pre h4, if_neg Bool.false_ne_true] at h5
  simp only [write_sdo, Prog.call_bind] at h5
  obtain ⟨a, t6, rfl, h6⟩ := h5.call_inv
  obtain ⟨rfl, rfl⟩ := h6.pure_inv
  exact ⟨t1 ++ (posRead, b) :: t4, a, by simp [cwWrite, posRead]⟩

/-- `main` never reads past the first `q` line — its run over any input is its run over the
    input up to that line — and, whatever the answers, its last request is then the Shutdown
    write of the control word. -/
theorem pp_main_quit (node : BitVec 8) (pre post : List (List Char)) (qline : List Char)
    (hq : ∃ tail, cut ['\n'] qline = 'q' :: tail) (env : Prog.Env) (h : List Exchange) :
    pp_main node (pre ++ qline :: post) = pp_main node (pre ++ [qline]) ∧
      ((pp_main node (pre ++ qline :: post)).run env h).2.getLast?.map Prod.fst =
        some (cwWrite 0x06) := by
  have e : pp_main node (pre ++ qline :: post) = pp_main node (pre ++ [qline]) := by
    simp only [pp_main, command_loop_quit hq post pre]
  refine ⟨e, ?_⟩
  obtain ⟨t', a, ht⟩ := pp_main_quit_path hq (Prog.path_run env (pp_main node (pre ++ [qline])) h)
  rw [e, ht]
  simp

/-- A move, `q`, then a move `main` never makes: the run is the one without the last line, and
    it ends with the Shutdown write. -/
theorem quit_ignores_later_lines :
    (∃ tail, cut ['\n'] "q".toList = 'q' :: tail) ∧
      pp_main 2 (["p 1000".toList] ++ "q".toList :: ["p 2000".toList]) =
        pp_main 2 (["p 1000".toList] ++ ["q".toList]) ∧
      ((pp_main 2 (["p 1000".toList] ++ "q".toList :: ["p 2000".toList])).run
        (fun _ _ => some 0) []).2.getLast?.map Prod.fst = some (cwWrite 0x06) :=
  have hq : ∃ tail, cut ['\n'] "q".toList = 'q' :: tail := ⟨[], by decide⟩
  ⟨hq, pp_main_quit 2 ["p 1000".toList] ["p 2000".toList] "q".toList hq (fun _ _ => some 0) []⟩

end ErobCanopen

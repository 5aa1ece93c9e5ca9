/-
  ErobCanopen.Console.Command
  ───────────────────────────
  **`main`'S COMMAND LOOP: `init_pp_mode`, THE HANDLERS, AND EVERY WAY ONE LINE CAN GO.**

  After `init_pp_mode` has written the mode, the three profile parameters and the enable
  sequence, `main` reads one line at a time (`fgets` into a 256-byte buffer, cut at the first
  `\n`) and dispatches on its first character:
    * `p <n>` — `current_target_position = parsed_value`, then `execute_position_move`;
    * `v`/`a`/`d <n>` — a positive `parsed_value` becomes the parameter and is written to
      `0x6081`/`0x6083`/`0x6084`;
    * `+x`/`-x` — the parameter `x` moves by 100 (`-` only above 100) and is written;
    * `s` — the Shutdown control word `0x06`;  `q` — `running = 0`.
  No handler looks at the answer of the write it makes, and none reads `motor_enabled`.

  The globals the loop touches are a record threaded through the `Prog` routines.
  `CommandRun` lists every way one line can go, with the exact exchanges it makes, and
  `process_command_path` proves that every path of a line is one of them; the loop invariants
  of `Console.Session` are read off it.
-/
import ErobCanopen.Drive.Move

namespace ErobCanopen

/-! ## §1. The globals and the profile parameters. -/

/-- The three profile parameters of `DriveContext`. -/
inductive ProfileParam where
  | velocity
  | acceleration
  | deceleration
  deriving DecidableEq, Repr

/-- The object each parameter is written to. -/
def ProfileParam.index : ProfileParam → BitVec 16
  | .velocity => 0x6081
  | .acceleration => 0x6083
  | .deceleration => 0x6084

/-- The command letter that names it. -/
def ProfileParam.letter : ProfileParam → Char
  | .velocity => 'v'
  | .acceleration => 'a'
  | .deceleration => 'd'

/-- `switch (input[1])` of the `+` and `-` commands. -/
def ProfileParam.ofLetter : Char → Option ProfileParam
  | 'v' => some .velocity
  | 'a' => some .acceleration
  | 'd' => some .deceleration
  | _ => none

theorem ProfileParam.ofLetter_eq_some {c : Char} {q : ProfileParam} :
    ProfileParam.ofLetter c = some q ↔ c = q.letter := by
  unfold ofLetter
  split <;> cases q <;> simp_all [letter]

/-- The globals of `pp_mode_control.c` that `main` reads or writes. -/
structure Globals where
  running : Bool
  current_target_position : BitVec 32
  current_profile_velocity : BitVec 32
  current_profile_acceleration : BitVec 32
  current_profile_deceleration : BitVec 32
  motor_enabled : Int
  deriving DecidableEq, Repr

/-- The initialisers: `running = 1`, target 0, profile parameters 5566, motor not enabled. -/
def Globals.initial : Globals := ⟨true, 0, 5566, 5566, 5566, 0⟩

/-- The value of a profile parameter. -/
def Globals.param (g : Globals) : ProfileParam → BitVec 32
  | .velocity => g.current_profile_velocity
  | .acceleration => g.current_profile_acceleration
  | .deceleration => g.current_profile_deceleration

/-- Assign a profile parameter. -/
def Globals.setParam (g : Globals) : ProfileParam → BitVec 32 → Globals
  | .velocity, v => { g with current_profile_velocity := v }
  | .acceleration, v => { g with current_profile_acceleration := v }
  | .deceleration, v => { g with current_profile_deceleration := v }

@[simp] theorem Globals.param_setParam (g : Globals) (q q' : ProfileParam) (v : BitVec 32) :
    (g.setParam q v).param q' = if q' = q then v else g.param q' := by
  cases q <;> cases q' <;> rfl

@[simp] theorem Globals.setParam_motor_enabled (g : Globals) (q : ProfileParam) (v : BitVec 32) :
    (g.setParam q v).motor_enabled = g.motor_enabled := by
  cases q <;> rfl

@[simp] theorem Globals.setParam_running (g : Globals) (q : ProfileParam) (v : BitVec 32) :
    (g.setParam q v).running = g.running := by
  cases q <;> rfl

/-! ## §2. The handlers. -/

/-- `case 'v'`, `case 'a'`, `case 'd'`: a positive argument becomes the parameter and is
    written to its object; the banner is reprinted either way. -/
def set_profile_parameter (q : ProfileParam) (g : Globals) (parsed_value : BitVec 32) :
    Prog Globals :=
  if 0 < parsed_value.toInt then do
    let g := g.setParam q parsed_value
    let _ ← write_sdo q.index 0 (g.param q)
    print_command_help
    pure g
  else do
    print_command_help
    pure g

/-- `case '+'`: the `uint32_t` parameter grows by 100 (modulo `2^32`) and is written. -/
def increase_profile_parameter (q : ProfileParam) (g : Globals) : Prog Globals := do
  let g := g.setParam q (g.param q + 100)
  let _ ← write_sdo q.index 0 (g.param q)
  pure g

/-- `case '-'`: above 100 the parameter shrinks by 100 and is written; otherwise nothing. -/
def decrease_profile_parameter (q : ProfileParam) (g : Globals) : Prog Globals :=
  if 100 < g.param q then do
    let g := g.setParam q (g.param q - 100)
    let _ ← write_sdo q.index 0 (g.param q)
    pure g
  else pure g

/-- `parsed_value`: 0, overwritten by `sscanf(input + 2, "%d", &parsed_value)` when the line
    is longer than two characters and a number is read there. -/
def parsedValue (input : List Char) : BitVec 32 :=
  if 2 < input.length then ((scan_d (input.drop 2)).map Prod.fst).getD 0 else 0

/-- One iteration of `main`'s `while (running)` loop, on the buffer `fgets` filled. -/
def process_command (g : Globals) (buf : List Char) : Prog Globals :=
  -- Remove newline
  match cut ['\n'] buf with
  | [] => pure g
  | cmd :: tail =>
    let input := cmd :: tail
    let parsed_value := parsedValue input
    match cmd with
    | 'p' =>
      if 2 < input.length then do
        let g := { g with current_target_position := parsed_value }
        let _ ← execute_position_move g.current_target_position
        pure g
      else pure g
    | 'v' => set_profile_parameter .velocity g parsed_value
    | 'a' => set_profile_parameter .acceleration g parsed_value
    | 'd' => set_profile_parameter .deceleration g parsed_value
    | '+' =>
      match tail.head?.bind ProfileParam.ofLetter with
      | some q => increase_profile_parameter q g
      | none => pure g
    | '-' =>
      match tail.head?.bind ProfileParam.ofLetter with
      | some q => decrease_profile_parameter q g
      | none => pure g
    | 's' => do
      let _ ← write_sdo 0x6040 0 0x06   -- Shutdown
      print_command_help
      pure g
    | 'q' => pure { g with running := false }
    | _ => pure g

/-- The loop over the buffers `fgets` returns, while `running`. -/
def command_loop : Globals → List (List Char) → Prog Globals
  | g, [] => pure g
  | g, buf :: rest =>
    if g.running then do
      let g ← process_command g buf
      command_loop g rest
    else pure g

/-- `init_pp_mode`: NMT stop, reset and start, then the writes of steps 3–6, each attempted
    once whatever the answer; `motor_enabled = 1` at the end. -/
def init_pp_mode (current_motor_id : BitVec 8) (g : Globals) : Prog Globals := do
  -- 1. Stop node
  send_nmt_command 0x02 current_motor_id
  send_nmt_command 0x82 current_motor_id
  -- 2. Start node
  send_nmt_command 0x01 current_motor_id
  -- 3. Set to profile position mode
  let _ ← write_sdo 0x6060 0 0x01
  -- 4. Set profile parameters
  let _ ← write_sdo 0x6081 0 5566
  let _ ← write_sdo 0x6083 0 5566
  let _ ← write_sdo 0x6084 0 5566
  -- 5. Clear error state
  let _ ← write_sdo 0x6040 0 0x80
  -- 6. Motor enable sequence
  let _ ← write_sdo 0x6040 0 0x06
  let _ ← write_sdo 0x6040 0 0x07
  let _ ← write_sdo 0x6040 0 0x0F
  pure { g with motor_enabled := 1 }

/-- `main` from `init_pp_mode` on, for the motor `current_motor_id`: initialise, print the
    banner, run the command loop over `lines` — the buffers `fgets(input, 256, stdin)` fills,
    `fgets_lines 256 [] text` for an input text — and after `q` the final Shutdown write.
    (When the input ends first, `fgets` returns `NULL` for ever and the loop spins without
    touching the bus.) -/
def pp_main (current_motor_id : BitVec 8) (lines : List (List Char)) : Prog Globals := do
  let g ← init_pp_mode current_motor_id Globals.initial
  print_command_help
  let g ← command_loop g lines
  if g.running then pure g
  else do
    let _ ← write_sdo 0x6040 0 0x06
    pure g

/-! ## §3. Every way one line can go. -/

/-- A non-empty line the loop passes over: an unknown command letter, or `+`/`-` not followed
    by `v`, `a` or `d`. -/
def Ignored (cmd : Char) (tail : List Char) : Prop :=
  cmd ∉ ['p', 'v', 'a', 'd', '+', '-', 's', 'q'] ∨
    ((cmd = '+' ∨ cmd = '-') ∧ tail.head?.bind ProfileParam.ofLetter = none)

/-- Every way one line can go: the globals after it and the exchanges it makes. -/
inductive CommandRun (g : Globals) (buf : List Char) : Globals → List Exchange → Prop where
  /-- An empty line. -/
  | empty : cut ['\n'] buf = [] → CommandRun g buf g []
  /-- `p` with an argument: the parsed value becomes the target and is moved to. -/
  | move (tail : List Char) (r : Int) (t : List Exchange) :
      cut ['\n'] buf = 'p' :: tail → 1 < tail.length →
      MoveRun (parsedValue ('p' :: tail)) r t →
      CommandRun g buf { g with current_target_position := parsedValue ('p' :: tail) } t
  /-- `p` alone: the target is only printed. -/
  | show_target (tail : List Char) :
      cut ['\n'] buf = 'p' :: tail → tail.length ≤ 1 → CommandRun g buf g []
  /-- `v`/`a`/`d` with a positive argument: assigned, written, banner reprinted. -/
  | set (q : ProfileParam) (tail : List Char) (a b : Answer) :
      cut ['\n'] buf = q.letter :: tail → 0 < (parsedValue (q.letter :: tail)).toInt →
      CommandRun g buf (g.setParam q (parsedValue (q.letter :: tail)))
        [(.write q.index 0 (parsedValue (q.letter :: tail)), a), (posRead, b)]
  /-- `v`/`a`/`d` otherwise: only the banner. -/
  | show_param (q : ProfileParam) (tail : List Char) (b : Answer) :
      cut ['\n'] buf = q.letter :: tail → ¬ 0 < (parsedValue (q.letter :: tail)).toInt →
      CommandRun g buf g [(posRead, b)]
  /-- `+x`: the parameter grows by 100 and is written. -/
  | increase (q : ProfileParam) (rest : List Char) (a : Answer) :
      cut ['\n'] buf = '+' :: q.letter :: rest →
      CommandRun g buf (g.setParam q (g.param q + 100)) [(.write q.index 0 (g.param q + 100), a)]
  /-- `-x` above 100: the parameter shrinks by 100 and is written. -/
  | decrease (q : ProfileParam) (rest : List Char) (a : Answer) :
      cut ['\n'] buf = '-' :: q.letter :: rest → 100 < g.param q →
      CommandRun g buf (g.setParam q (g.param q - 100)) [(.write q.index 0 (g.param q - 100), a)]
  /-- `-x` at or below 100: refused. -/
  | at_minimum (q : ProfileParam) (rest : List Char) :
      cut ['\n'] buf = '-' :: q.letter :: rest → ¬ 100 < g.param q → CommandRun g buf g []
  /-- `s`: the Shutdown control word, then the banner. -/
  | stop (tail : List Char) (a b : Answer) :
      cut ['\n'] buf = 's' :: tail → CommandRun g buf g [(cwWrite 0x06, a), (posRead, b)]
  /-- `q`: `running = 0`. -/
  | quit (tail : List Char) :
      cut ['\n'] buf = 'q' :: tail → CommandRun g buf { g with running := false } []
  /-- Anything else. -/
  | ignored (cmd : Char) (tail : List Char) :
      cut ['\n'] buf = cmd :: tail → Ignored cmd tail → CommandRun g buf g []

section Handlers

variable {g g' : Globals} {buf : List Char} {t : List Exchange}

theorem set_profile_parameter_run {q : ProfileParam} {tail : List Char}
    (hcut : cut ['\n'] buf = q.letter :: tail)
    (hp : Prog.Path (set_profile_parameter q g (parsedValue (q.letter :: tail))) g' t) :
    CommandRun g buf g' t := by
  unfold set_profile_parameter at hp
  split at hp
  · rename_i hpos
    simp only [write_sdo, print_command_help, read_sdo, Prog.call_bind, Prog.pure_bind] at hp
    obtain ⟨a, t1, rfl, hp1⟩ := hp.call_inv
    obtain ⟨b, t2, rfl, hp2⟩ := hp1.call_inv
    obtain ⟨rfl, rfl⟩ := hp2.pure_inv
    simpa using CommandRun.set q tail a b hcut hpos
  · rename_i hpos
    simp only [print_command_help, read_sdo, Prog.call_bind, Prog.pure_bind] at hp
    obtain ⟨b, t2, rfl, hp2⟩ := hp.call_inv
    obtain ⟨rfl, rfl⟩ := hp2.pure_inv
    exact .show_param q tail b hcut hpos

theorem increase_profile_parameter_run {q : ProfileParam} {rest : List Char}
    (hcut : cut ['\n'] buf = '+' :: q.letter :: rest)
    (hp : Prog.Path (increase_profile_parameter q g) g' t) : CommandRun g buf g' t := by
  simp only [increase_profile_parameter, write_sdo, Prog.call_bind, Prog.pure_bind] at hp
  obtain ⟨a, t1, rfl, hp1⟩ := hp.call_inv
  obtain ⟨rfl, rfl⟩ := hp1.pure_inv
  simpa using CommandRun.increase q rest a hcut

theorem decrease_profile_parameter_run {q : ProfileParam} {rest : List Char}
    (hcut : cut ['\n'] buf = '-' :: q.letter :: rest)
    (hp : Prog.Path (decrease_profile_parameter q g) g' t) : CommandRun g buf g' t := by
  unfold decrease_profile_parameter at hp
  split at hp
  · rename_i hgt
    simp only [write_sdo, Prog.call_bind, Prog.pure_bind] at hp
    obtain ⟨a, t1, rfl, hp1⟩ := hp.call_inv
    obtain ⟨rfl, rfl⟩ := hp1.pure_inv
    simpa using CommandRun.decrease q rest a hcut hgt
  · obtain ⟨rfl, rfl⟩ := hp.pure_inv
    exact .at_minimum q rest hcut ‹_›

/-- The letter after `+`/`-` that selects a parameter. -/
theorem eq_letter_of_head_bind {tail : List Char} {q : ProfileParam}
    (h : tail.head?.bind ProfileParam.ofLetter = some q) : ∃ rest, tail = q.letter :: rest := by
  cases tail with
  | nil => cases h
  | cons c rest => exact ⟨rest, by rw [ProfileParam.ofLetter_eq_some.mp h]⟩

end Handlers

theorem process_command_path {g g' : Globals} {buf : List Char} {t : List Exchange}
    (hp : Prog.Path (process_command g buf) g' t) : CommandRun g buf g' t := by
  unfold process_command at hp
  split at hp
  next hcut =>
    obtain ⟨rfl, rfl⟩ := hp.pure_inv
    exact .empty hcut
  next cmd tail hcut =>
    split at hp
    case h_1 =>
      dsimp only at hp
      split at hp
      next hlen =>
        obtain ⟨r, t1, t2, rfl, h1, h2⟩ := hp.bind_inv
        obtain ⟨rfl, rfl⟩ := h2.pure_inv
        simpa using CommandRun.move tail r t1 hcut (by simp at hlen; omega)
          (execute_position_move_path h1)
      next hlen =>
        obtain ⟨rfl, rfl⟩ := hp.pure_inv
        exact .show_target tail hcut (by simp at hlen; omega)
    case h_2 => exact set_profile_parameter_run (q := .velocity) hcut hp
    case h_3 => exact set_profile_parameter_run (q := .acceleration) hcut hp
    case h_4 => exact set_profile_parameter_run (q := .deceleration) hcut hp
    case h_5 =>
      split at hp
      · obtain ⟨rest, rfl⟩ := eq_letter_of_head_bind ‹_›
        exact increase_profile_parameter_run hcut hp
      · obtain ⟨rfl, rfl⟩ := hp.pure_inv
        exact .ignored '+' tail hcut (.inr ⟨.inl rfl, ‹_›⟩)
    case h_6 =>
      split at hp
      · obtain ⟨rest, rfl⟩ := eq_letter_of_head_bind ‹_›
        exact decrease_profile_parameter_run hcut hp
      · obtain ⟨rfl, rfl⟩ := hp.pure_inv
        exact .ignored '-' tail hcut (.inr ⟨.inr rfl, ‹_›⟩)
    case h_7 =>
      simp only [write_sdo, print_command_help, read_sdo, Prog.call_bind, Prog.pure_bind] at hp
      obtain ⟨a, t1, rfl, hp1⟩ := hp.call_inv
      obtain ⟨b, t2, rfl, hp2⟩ := hp1.call_inv
      obtain ⟨rfl, rfl⟩ := hp2.pure_inv
      exact .stop tail a b hcut
    case h_8 =>
      obtain ⟨rfl, rfl⟩ := hp.pure_inv
      exact .quit tail hcut
    case h_9 hp' hv ha hd hplus hminus hs hq =>
      obtain ⟨rfl, rfl⟩ := hp.pure_inv
      exact .ignored cmd tail hcut (.inl (by
        simp only [List.mem_cons, List.not_mem_nil, or_false, not_or]
        exact ⟨hp', hv, ha, hd, hplus, hminus, hs, hq⟩))

end ErobCanopen

/-
  ErobCanopen.Console.Startup
  ───────────────────────────
  **THE WHOLE OF `main`: WHICH NODE IT DRIVES, WHAT OF THE STANDARD INPUT REACHES THE COMMAND
  LOOP, AND WHEN IT RETURNS 1.**

  Before `init_pp_mode`, `main` picks `current_motor_id`:
    * from `argv[1]` when there is one: `atoi`, and `return 1` unless it is in 1..127;
    * otherwise from `scanf("%d")` at a prompt, falling back to `MOTOR_NODE_ID` when no number
      is read or it is out of range — so without an argument the node is always chosen.
  Then it loads the EDS file into `object_dict`, opens, names and binds the socket
  (`return 1` when `socket`, `ioctl` or `bind` fails), broadcasts the NMT start
  (`check_can_connection`, `return 1` when its write fails) and runs `pp_main` on the lines
  `fgets` reads from what `scanf` left of the standard input.  `scanf` leaves everything after
  the number: a newline typed after it is an empty line the loop skips, but text typed instead
  of a number stays in the stream and is executed as commands (`p 1000` at the prompt moves
  motor 2).

  Main results:
    * `main_talks_to_valid_node` — whatever the arguments and the input, the node is in
      1..127 and the command loop reads the lines of exactly what `scanf` left of the input;
    * `main_returns_one_iff` — `main` returns 1 exactly on a bad `argv[1]`, a failed socket
      call or a failed NMT start;
    * `main_transactions_le` — every run makes at most `10 + 107 n` transactions for an input
      of `n` characters.
-/
import ErobCanopen.Console.Bounds
import ErobCanopen.Discovery.Scan

namespace ErobCanopen

/-! ## §1. Picking the node. -/

/-- The test `input_id >= 1 && input_id <= 127` of both branches. -/
def validNodeId (input_id : BitVec 32) : Bool := 1 ≤ input_id.toInt && input_id.toInt ≤ 127

theorem validNodeId_iff (v : BitVec 32) : validNodeId v = true ↔ 1 ≤ v.toNat ∧ v.toNat ≤ 127 := by
  simp only [validNodeId, BitVec.toInt_eq_toNat_cond, Bool.and_eq_true, decide_eq_true_eq]
  split <;> omega

/-- `current_motor_id = input_id` keeps a valid id as it is. -/
theorem setWidth_of_valid {v : BitVec 32} (h : validNodeId v = true) :
    1 ≤ (v.setWidth 8).toNat ∧ (v.setWidth 8).toNat ≤ 127 := by
  rw [validNodeId_iff] at h
  rw [BitVec.toNat_setWidth, Nat.mod_eq_of_lt (by omega)]
  exact h

/-- How `main` sets `current_motor_id`, with what is left of the standard input; `none` is the
    `return 1` of a bad `argv[1]`. -/
def select_motor_id (argv : List (List Char)) (stdin : List Char) : Option (BitVec 8 × List Char) :=
  match argv with
  | _ :: arg :: _ =>
    let input_id := atoi arg
    if validNodeId input_id then some (input_id.setWidth 8, stdin) else none
  | _ =>
    match scanf_d stdin with
    | (some input_id, rest) =>
      some (if validNodeId input_id then input_id.setWidth 8 else MOTOR_NODE_ID, rest)
    | (none, rest) => some (MOTOR_NODE_ID, rest)

theorem select_motor_id_some {argv : List (List Char)} {stdin rest : List Char} {node : BitVec 8}
    (h : select_motor_id argv stdin = some (node, rest)) :
    1 ≤ node.toNat ∧ node.toNat ≤ 127 ∧ rest <:+ stdin := by
  have hdefault : 1 ≤ MOTOR_NODE_ID.toNat ∧ MOTOR_NODE_ID.toNat ≤ 127 := by decide
  unfold select_motor_id at h
  split at h
  · dsimp only at h
    split at h
    · cases h
      exact ⟨(setWidth_of_valid ‹_›).1, (setWidth_of_valid ‹_›).2, List.suffix_refl _⟩
    · cases h
  · have hs := scanf_d_suffix stdin
    split at h <;> rename_i heq <;> rw [heq] at hs <;> cases h
    · split
      · exact ⟨(setWidth_of_valid ‹_›).1, (setWidth_of_valid ‹_›).2, hs⟩
      · exact ⟨hdefault.1, hdefault.2, hs⟩
    · exact ⟨hdefault.1, hdefault.2, hs⟩

/-- What `main` leaves of the standard input for the command loop: all of it when `argv[1]` is
    given, and otherwise what `scanf("%d")` leaves — the input after its leading white space, a
    sign and the decimal digits that follow. -/
theorem select_motor_id_rest {argv : List (List Char)} {stdin rest : List Char}
    {node : BitVec 8} (h : select_motor_id argv stdin = some (node, rest)) :
    rest = if 1 < argv.length then stdin
      else (scanSign (stdin.dropWhile isSpace)).2.dropWhile fun c => (digitVal 10 c).isSome := by
  unfold select_motor_id at h
  split at h
  · dsimp only at h
    split at h
    · cases h
      simp
    · cases h
  · rename_i hargv
    have hlen : ¬ 1 < argv.length := fun hl => by
      match argv, hl with
      | p :: a :: m, _ => exact hargv p a m rfl
    rw [if_neg hlen, ← scanf_d_rest]
    split at h <;> rename_i heq <;> rw [heq] <;> cases h <;> rfl

/-- The node choice stops `main` only on a bad `argv[1]`: without an argument it always
    goes on. -/
theorem select_motor_id_eq_none (argv : List (List Char)) (stdin : List Char) :
    select_motor_id argv stdin = none ↔
      ∃ prog arg more, argv = prog :: arg :: more ∧ validNodeId (atoi arg) = false := by
  unfold select_motor_id
  split
  · rename_i p a m
    simp only [ite_eq_right_iff, reduceCtorEq, imp_false, Bool.not_eq_true, List.cons.injEq]
    exact ⟨fun h => ⟨p, a, m, ⟨rfl, rfl, rfl⟩, h⟩, fun ⟨_, _, _, ⟨_, ha, _⟩, h⟩ => ha ▸ h⟩
  · rename_i hargv
    refine ⟨fun h => (by split at h <;> cases h), ?_⟩
    rintro ⟨p, a, m, rfl, -⟩
    exact absurd rfl (hargv p a m)

/-! ## §2. `main`. -/

/-- The outcomes of `main`'s socket set-up: `socket(PF_CAN, SOCK_RAW, CAN_RAW)`,
    `ioctl(sock, SIOCGIFINDEX, &ifr)` for `can0`, and `bind`. -/
structure SocketSetup where
  socket_ok : Bool
  ioctl_ok : Bool
  bind_ok : Bool
  deriving DecidableEq, Repr

/-- The three calls succeed, and `main` goes on to the bus. -/
def SocketSetup.ready (setup : SocketSetup) : Bool :=
  setup.socket_ok && setup.ioctl_ok && setup.bind_ok

/-- `check_can_connection`: the NMT start broadcast, command `0x01` to node `0x00`; −1 when its
    `write` fails (no answer), else 0. -/
def check_can_connection : Prog Int :=
  .call (.nmt 0x01 0x00) fun written => .pure (if written.isSome then 0 else -1)

namespace PpModeControl

/-- What `main` runs once its socket is bound: `check_can_connection`, returning 1 (`none`) when
    it fails; otherwise `init_pp_mode`, the command loop over `lines` and the final Shutdown,
    returning 0 (`some`) with the globals they leave. -/
def routine (current_motor_id : BitVec 8) (lines : List (List Char)) :
    Prog (Option Globals) := do
  if (← check_can_connection) < 0 then pure none
  else do
    let g ← pp_main current_motor_id lines
    pure (some g)

/-- `main`: `none` when it returns 1 before any frame, on a bad `argv[1]` or a failed socket
    call; otherwise the node it drives, the dictionary `parse_eds_file` fills from the EDS text
    (`none`: the file does not open), which the request frames are built with, and the routine
    it runs on the lines `fgets` reads from what is left of the standard input. -/
def main (argv : List (List Char)) (eds : Option (List Char)) (setup : SocketSetup)
    (stdin : List Char) : Option (BitVec 8 × ObjectDict × Prog (Option Globals)) :=
  match select_motor_id argv stdin with
  | none => none
  | some (current_motor_id, rest) =>
    if setup.ready then
      some (current_motor_id, (parse_eds_file ObjectDict.empty eds).2,
        routine current_motor_id (fgets_lines 256 [] rest))
    else none

theorem main_eq_some {argv : List (List Char)} {eds : Option (List Char)} {setup : SocketSetup}
    {stdin : List Char} {node : BitVec 8} {od : ObjectDict} {prog : Prog (Option Globals)}
    (h : main argv eds setup stdin = some (node, od, prog)) :
    ∃ rest, select_motor_id argv stdin = some (node, rest) ∧ setup.ready = true ∧
      od = (parse_eds_file ObjectDict.empty eds).2 ∧
      prog = routine node (fgets_lines 256 [] rest) := by
  unfold main at h
  split at h
  · cases h
  · rename_i rest hs
    split at h
    · cases h
      exact ⟨rest, hs, ‹_›, rfl, rfl⟩
    · cases h

/-- Every run of the routine begins with the NMT start: when its write fails the routine
    returns 1 at once, and otherwise it goes on as `pp_main` from there. -/
theorem routine_run (node : BitVec 8) (lines : List (List Char)) (env : Prog.Env)
    (h : List Exchange) :
    (routine node lines).run env h =
      if (env h (.nmt 0x01 0x00)).isSome then
        let r := (pp_main node lines).run env (h ++ [(.nmt 0x01 0x00, env h (.nmt 0x01 0x00))])
        (some r.1, (.nmt 0x01 0x00, env h (.nmt 0x01 0x00)) :: r.2)
      else (none, [(.nmt 0x01 0x00, env h (.nmt 0x01 0x00))]) := by
  simp only [routine, check_can_connection, Prog.call_bind, Prog.pure_bind, Prog.run_call]
  split
  · rename_i hw
    simp only [hw, if_true, show ¬ ((0 : Int) < 0) by decide, if_false, Prog.run_bind,
      Prog.pure_eq, Prog.run_pure, List.append_nil]
  · rename_i hw
    simp only [hw, Bool.false_eq_true, if_false, show (-1 : Int) < 0 by decide, if_true,
      Prog.pure_eq, Prog.run_pure]

end PpModeControl

/-- Whatever the arguments, the EDS text, the socket set-up and the input, when `main` goes on
    it drives a node in 1..127, and runs its routine on the lines of exactly what is left of the
    input: all of it when `argv[1]` is given, and otherwise what follows the white space, the
    sign and the digits `scanf("%d")` reads — so text typed instead of a node id reaches the
    command loop. -/
theorem main_talks_to_valid_node {argv : List (List Char)} {eds : Option (List Char)}
    {setup : SocketSetup} {stdin : List Char} {node : BitVec 8} {od : ObjectDict}
    {prog : Prog (Option Globals)} (h : PpModeControl.main argv eds setup stdin = some (node, od, prog)) :
    1 ≤ node.toNat ∧ node.toNat ≤ 127 ∧
      prog = PpModeControl.routine node (fgets_lines 256 []
        (if 1 < argv.length then stdin
          else (scanSign (stdin.dropWhile isSpace)).2.dropWhile fun c => (digitVal 10 c).isSome)) := by
  obtain ⟨rest, hs, -, -, rfl⟩ := PpModeControl.main_eq_some h
  obtain ⟨h1, h2, -⟩ := select_motor_id_some hs
  exact ⟨h1, h2, by rw [← select_motor_id_rest hs]⟩

/-- A move typed at the node prompt: no number is read, so motor 2 is driven and the loop's
    first line is the move. -/
theorem prompt_text_runs_as_command :
    PpModeControl.main ["pp_mode_control".toList] none ⟨true, true, true⟩ "p 1000\n".toList =
        some (2, ObjectDict.empty, PpModeControl.routine 2 ["p 1000\n".toList]) ∧
      1 ≤ (2 : BitVec 8).toNat ∧ (2 : BitVec 8).toNat ≤ 127 ∧
      PpModeControl.routine 2 ["p 1000\n".toList] = PpModeControl.routine 2 (fgets_lines 256 []
        (if 1 < ["pp_mode_control".toList].length then "p 1000\n".toList
          else (scanSign ("p 1000\n".toList.dropWhile isSpace)).2.dropWhile
            fun c => (digitVal 10 c).isSome)) :=
  have h : PpModeControl.main ["pp_mode_control".toList] none ⟨true, true, true⟩
      "p 1000\n".toList = some (2, ObjectDict.empty, PpModeControl.routine 2 ["p 1000\n".toList]) :=
    rfl
  ⟨h, main_talks_to_valid_node h⟩

/-- Whatever the answers, every run of `main`'s routine makes at most `10 + 107 n`
    transactions for an input of `n` characters: the NMT start is not one, and each line
    `fgets` returns takes at least one character. -/
theorem main_transactions_le {argv : List (List Char)} {eds : Option (List Char)}
    {setup : SocketSetup} {stdin : List Char} {node : BitVec 8} {od : ObjectDict}
    {prog : Prog (Option Globals)} (h : PpModeControl.main argv eds setup stdin = some (node, od, prog))
    (env : Prog.Env) (hist : List Exchange) :
    transactions (prog.run env hist).2 ≤ 10 + 107 * stdin.length := by
  obtain ⟨rest, hs, -, -, rfl⟩ := PpModeControl.main_eq_some h
  have hlen : (fgets_lines 256 [] rest).length ≤ stdin.length :=
    (fgets_lines_length_le 256 rest []).trans (select_motor_id_some hs).2.2.length_le
  have hpp := pp_main_path_transactions_le (Prog.path_run env
    (pp_main node (fgets_lines 256 [] rest))
    (hist ++ [(.nmt 0x01 0x00, env hist (.nmt 0x01 0x00))]))
  rw [PpModeControl.routine_run]
  split <;>
    simp only [transactions_cons, transactions_nil, Op.isTransaction, Bool.false_eq_true, if_false]
  · omega
  · omega

/-- Node 5 from the command line and a one-move input of 7 characters. -/
theorem argument_run_bounded :
    PpModeControl.main ["pp_mode_control".toList, "5".toList] none ⟨true, true, true⟩
        "p 1000\n".toList = some (5, ObjectDict.empty, PpModeControl.routine 5 ["p 1000\n".toList]) ∧
      transactions ((PpModeControl.routine 5 ["p 1000\n".toList]).run (fun _ _ => none) []).2 ≤
        10 + 107 * "p 1000\n".toList.length :=
  have h : PpModeControl.main ["pp_mode_control".toList, "5".toList] none ⟨true, true, true⟩
      "p 1000\n".toList = some (5, ObjectDict.empty, PpModeControl.routine 5 ["p 1000\n".toList]) :=
    rfl
  ⟨h, main_transactions_le h (fun _ _ => none) []⟩

end ErobCanopen

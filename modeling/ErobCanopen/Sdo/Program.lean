/-
  ErobCanopen.Sdo.Program
  ───────────────────────
  **THE CONTROL PROGRAM AS A TREE OF BUS REQUESTS.**

  Every routine of `pp_mode_control.c` above the transaction engine — `init_pp_mode`,
  `execute_position_move`, `print_command_help`, `monitor_motion`, the command handlers of
  `main` — talks to the drive only through `read_sdo`, `write_sdo` and `send_nmt_command`.
  Such a routine is modelled as a `Prog`: a tree whose inner nodes are those requests, each
  branching on the answer it gets.

  The answer to a request is what the C call hands back to its caller:
    * `read_sdo` — `some v` when it returned 0 having stored `v`, `none` when it returned −1
      (send failure, abort or timeout) leaving `*data` as it was;
    * `write_sdo` — `some _` when it returned 0, `none` when it returned −1;
    * `send_nmt_command`, and the lines a routine prints (`Op.report`) — not looked at.

  `Prog.run env` follows the tree with an ENVIRONMENT that answers each request knowing every
  request and answer before it.  Quantifying over `env` is quantifying over every outcome of
  every transaction, in every order and with every correlation; the lower layers (a drive
  model, the frame-level engine) are particular environments.

  Main results:
    * `Prog.run_bind` — the run of a sequence is the run of its parts, traces concatenated;
    * `Prog.Path` and `path_run` — the paths through a routine, which every run follows;
    * `writesTo` — the values a run writes to one object;
    * `Path.call_inv`, `Path.bind_inv` — inversion along the tree.
-/
import ErobCanopen.Sdo.Engine

namespace ErobCanopen

/-! ## §1. Requests and printed lines. -/

/-- A line the program prints that some property talks about. -/
inductive Report where
  /-- Step 7 of `execute_position_move`: the two position readings the displacement is
      computed from (`none`: the first read failed and `current_position` is left
      uninitialised). -/
  | displacement (current_position : Option (BitVec 32)) (new_position : BitVec 32)
  /-- A `[Status]` line of `monitor_motion`: the status word as printed, `(uint16_t)`, the
      actual and target positions, and whether `Target reached!` is appended. -/
  | status (status_word : BitVec 16) (actual_position target_position : BitVec 32)
      (target_reached : Bool)
  /-- The conclusion of `quick_scan`'s `read_node_info`: whether it calls the node a likely
      motor drive. -/
  | motor_conclusion (node_id : BitVec 8) (likely_motor : Bool)
  deriving DecidableEq, Repr

/-- One request of the program to the outside world. -/
inductive Op where
  /-- `read_sdo(sock, index, subindex, &data)`. -/
  | read (index : BitVec 16) (subindex : BitVec 8)
  /-- `write_sdo(sock, index, subindex, data)`. -/
  | write (index : BitVec 16) (subindex : BitVec 8) (data : BitVec 32)
  /-- An NMT frame: `send_nmt_command(sock, command, node_id)`. -/
  | nmt (command : BitVec 8) (node_id : BitVec 8)
  /-- A printed line. -/
  | report (r : Report)
  deriving DecidableEq, Repr

/-- The answer a request gets (see the module header). -/
abbrev Answer := Option (BitVec 32)

/-- A request together with the answer it got. -/
abbrev Exchange := Op × Answer

/-- The value a request writes to the object `index`, if it is a write of it. -/
def Op.writeTo (index : BitVec 16) : Op → Option (BitVec 32)
  | .write i _ data => if i = index then some data else none
  | _ => none

@[simp] theorem Op.writeTo_write (index i : BitVec 16) (s : BitVec 8) (data : BitVec 32) :
    (Op.write i s data).writeTo index = if i = index then some data else none := rfl

@[simp] theorem Op.writeTo_read (index i : BitVec 16) (s : BitVec 8) :
    (Op.read i s).writeTo index = none := rfl

@[simp] theorem Op.writeTo_nmt (index : BitVec 16) (c n : BitVec 8) :
    (Op.nmt c n).writeTo index = none := rfl

@[simp] theorem Op.writeTo_report (index : BitVec 16) (r : Report) :
    (Op.report r).writeTo index = none := rfl

/-- The values the exchanges `t` write to the object `index`, in order, answered or not. -/
def writesTo (index : BitVec 16) (t : List Exchange) : List (BitVec 32) :=
  (t.map Prod.fst).filterMap (Op.writeTo index)

@[simp] theorem writesTo_nil (index : BitVec 16) : writesTo index [] = [] := rfl

@[simp] theorem writesTo_cons (index : BitVec 16) (e : Exchange) (t : List Exchange) :
    writesTo index (e :: t) = (e.1.writeTo index).toList ++ writesTo index t := by
  cases h : e.1.writeTo index <;> simp [writesTo, h]

@[simp] theorem writesTo_append (index : BitVec 16) (t t' : List Exchange) :
    writesTo index (t ++ t') = writesTo index t ++ writesTo index t' := by
  simp [writesTo]

/-- A routine of the control program. -/
inductive Prog (α : Type) where
  | pure (a : α)
  | call (op : Op) (k : Answer → Prog α)

namespace Prog

/-- Sequencing. -/
def bind {α β : Type} : Prog α → (α → Prog β) → Prog β
  | .pure a, f => f a
  | .call op k, f => .call op fun r => (k r).bind f

instance : Monad Prog where
  pure := Prog.pure
  bind := Prog.bind

theorem pure_eq {α : Type} (a : α) : (Pure.pure a : Prog α) = Prog.pure a := rfl

@[simp] theorem pure_bind {α β : Type} (a : α) (f : α → Prog β) :
    (Prog.pure a >>= f) = f a := rfl

@[simp] theorem call_bind {α β : Type} (op : Op) (k : Answer → Prog α) (f : α → Prog β) :
    (Prog.call op k >>= f) = .call op fun r => k r >>= f := rfl

/-- An environment: the answer to each request, given every exchange before it. -/
abbrev Env := List Exchange → Op → Answer

/-- Follow a routine: its result and the exchanges it made, after the history `h`. -/
def run {α : Type} (env : Env) : Prog α → List Exchange → α × List Exchange
  | .pure a, _ => (a, [])
  | .call op k, h =>
    let r := env h op
    let rest := (k r).run env (h ++ [(op, r)])
    (rest.1, (op, r) :: rest.2)

@[simp] theorem run_pure {α : Type} (env : Env) (a : α) (h : List Exchange) :
    (Prog.pure a).run env h = (a, []) := rfl

theorem run_call {α : Type} (env : Env) (op : Op) (k : Answer → Prog α) (h : List Exchange) :
    (Prog.call op k).run env h =
      (((k (env h op)).run env (h ++ [(op, env h op)])).1,
        (op, env h op) :: ((k (env h op)).run env (h ++ [(op, env h op)])).2) := rfl

/-- The run of a sequence: the second part starts from the history the first left. -/
theorem run_bind {α β : Type} (env : Env) (x : Prog α) (f : α → Prog β) (h : List Exchange) :
    (x >>= f).run env h =
      (((f (x.run env h).1).run env (h ++ (x.run env h).2)).1,
        (x.run env h).2 ++ ((f (x.run env h).1).run env (h ++ (x.run env h).2)).2) := by
  induction x generalizing h with
  | pure a => simp
  | call op k ih =>
    simp only [call_bind, run_call, ih, List.append_assoc, List.singleton_append,
      List.cons_append, List.nil_append]

/-- The paths through a routine: its result and exchanges for SOME answer to each request.
    Every run is a path (`path_run`), and a property of all paths holds for every outcome of
    every transaction. -/
inductive Path {α : Type} : Prog α → α → List Exchange → Prop where
  | pure (a : α) : Path (.pure a) a []
  | call {op : Op} {k : Answer → Prog α} {a : α} {t : List Exchange} (r : Answer) :
      Path (k r) a t → Path (.call op k) a ((op, r) :: t)

theorem path_run {α : Type} (env : Env) (x : Prog α) (h : List Exchange) :
    Path x (x.run env h).1 (x.run env h).2 := by
  induction x generalizing h with
  | pure a => exact .pure a
  | call op k ih => exact .call _ (ih _ _)

theorem Path.pure_inv {α : Type} {a b : α} {t : List Exchange} (hp : Path (.pure a) b t) :
    b = a ∧ t = [] := by
  cases hp; exact ⟨rfl, rfl⟩

theorem Path.call_inv {α : Type} {op : Op} {k : Answer → Prog α} {a : α} {t : List Exchange}
    (hp : Path (.call op k) a t) : ∃ r t', t = (op, r) :: t' ∧ Path (k r) a t' := by
  cases hp with
  | call r hp => exact ⟨r, _, rfl, hp⟩

/-- A path of a sequence is a path of its first part followed by one of its second. -/
theorem Path.bind_inv {α β : Type} {x : Prog α} {f : α → Prog β} {b : β} {t : List Exchange}
    (hp : Path (x >>= f) b t) :
    ∃ a t₁ t₂, t = t₁ ++ t₂ ∧ Path x a t₁ ∧ Path (f a) b t₂ := by
  induction x generalizing t with
  | pure a => exact ⟨a, [], t, rfl, .pure a, hp⟩
  | call op k ih =>
    obtain ⟨r, t', rfl, hk⟩ := Path.call_inv hp
    obtain ⟨a, t₁, t₂, rfl, h₁, h₂⟩ := ih r hk
    exact ⟨a, (op, r) :: t₁, t₂, rfl, .call r h₁, h₂⟩

/-- Requests made one after the other, whatever their answers, then `k`. -/
def calls {α : Type} (ops : List Op) (k : Prog α) : Prog α :=
  ops.foldr (fun op k => .call op fun _ => k) k

theorem Path.calls_inv {α : Type} {ops : List Op} {k : Prog α} {a : α} {t : List Exchange}
    (hp : Path (calls ops k) a t) :
    ∃ t₁ t₂, t = t₁ ++ t₂ ∧ t₁.map Prod.fst = ops ∧ Path k a t₂ := by
  induction ops generalizing t with
  | nil => exact ⟨[], t, rfl, rfl, hp⟩
  | cons op ops ih =>
    obtain ⟨r, t', rfl, hk⟩ := Path.call_inv hp
    obtain ⟨t₁, t₂, rfl, hops, hk⟩ := ih hk
    exact ⟨(op, r) :: t₁, t₂, rfl, by simp [hops], hk⟩

end Prog

/-! ## §2. The primitive calls. -/

/-- `read_sdo(sock, index, subindex, &data)`. -/
def read_sdo (index : BitVec 16) (subindex : BitVec 8) : Prog Answer :=
  .call (.read index subindex) .pure

/-- `write_sdo(sock, index, subindex, data)`: 0 on success, −1 on failure. -/
def write_sdo (index : BitVec 16) (subindex : BitVec 8) (data : BitVec 32) : Prog Int :=
  .call (.write index subindex data) fun r => .pure (if r.isSome then 0 else -1)

/-- `send_nmt_command(sock, command, node_id)`; callers ignore its result. -/
def send_nmt_command (command node_id : BitVec 8) : Prog Unit :=
  .call (.nmt command node_id) fun _ => .pure ()

/-- A printed line. -/
def report (r : Report) : Prog Unit :=
  .call (.report r) fun _ => .pure ()

end ErobCanopen

/-
  ErobCanopen.Console.Bounds
  ──────────────────────────
  **HOW LONG `main` HOLDS THE BUS: AT MOST 107 TRANSACTIONS FOR ONE LINE, WHATEVER THE ANSWERS.**

  Each `read_sdo` and `write_sdo` waits at most `TIMEOUT_MS` for its response, and every loop
  `main` runs on the bus is bounded: each of a move's two status waits makes at most 50
  reads.  So the number of transactions a line makes bounds the time it holds the console.  A
  move makes at most 107: its four set-up transactions, 49 missed status reads and the one
  that sees bit 12, the release write, 50 reads of the second wait, the position re-read and
  the banner's read.  Any other line makes at most 2, and `main` at most `10 + 107 n` for `n`
  lines: `init_pp_mode`'s eight writes, the banner's read and the final Shutdown besides.

  Main results:
    * `MoveRun.transactions_le` — a move, on each of its paths;
    * `pp_main_path_transactions_le`, `pp_main_transactions_le` — every path and every run of
      `main`.
-/
import ErobCanopen.Console.Session
import ErobCanopen.Sdo.Session

namespace ErobCanopen

/-! ## §1. Counting transactions. -/

/-- The number of bus transactions — reads and writes — among the exchanges `t`. -/
def transactions (t : List Exchange) : Nat := (t.filter fun e => e.1.isTransaction).length

@[simp] theorem transactions_nil : transactions [] = 0 := rfl

@[simp] theorem transactions_cons (e : Exchange) (t : List Exchange) :
    transactions (e :: t) = transactions t + if e.1.isTransaction then 1 else 0 := by
  unfold transactions
  rw [List.filter_cons]
  split <;> simp

@[simp] theorem transactions_append (t t' : List Exchange) :
    transactions (t ++ t') = transactions t + transactions t' := by
  simp [transactions, List.filter_append]

/-- The count reads the requests only. -/
theorem transactions_eq_ops : ∀ t : List Exchange,
    transactions t = ((t.map Prod.fst).filter Op.isTransaction).length
  | [] => rfl
  | e :: t => by
    rw [transactions_cons, transactions_eq_ops t, List.map_cons, List.filter_cons]
    split <;> simp_all

/-- Status reads are all transactions. -/
theorem transactions_of_statusReads {t : List Exchange} (h : ∀ e ∈ t, e.1 = statusRead) :
    transactions t = t.length := by
  rw [transactions, List.filter_eq_self.mpr fun e he => by rw [h e he]; rfl]

/-! ## §2. One line. -/

theorem Settle.transactions_le {cur : Answer} {t : List Exchange} (h : Settle cur t) :
    transactions t ≤ 52 := by
  cases h with
  | unread w _ hw hs =>
    simp [transactions_of_statusReads hs, posRead, Op.isTransaction]
    omega
  | reread w _ _ _ hw hs =>
    simp [transactions_of_statusReads hs, posRead, Op.isTransaction]
    omega

/-- On each of its paths, a move makes at most 107 transactions. -/
theorem MoveRun.transactions_le {p : BitVec 32} {r : Int} {t : List Exchange} (h : MoveRun p r t) :
    transactions t ≤ 107 := by
  have harmed (pos : Answer) (a cw b : BitVec 32) : transactions (armed p pos a cw b) = 4 := rfl
  have hmiss {misses : List Exchange} (hm : ∀ e ∈ misses, Missed bit12Set e) :
      transactions misses = misses.length :=
    transactions_of_statusReads fun e he => (hm e he).1
  cases h with
  | out_of_range => decide
  | target_failed | read_failed | set_failed =>
    simp [posRead, targetWrite, cwRead, cwWrite, Op.isTransaction]
  | ack_timeout pos a cw b misses _ hlen hm =>
    rw [transactions_append, harmed, hmiss hm, hlen]
    decide
  | release_failed pos a cw b sw misses _ hlen hm =>
    simp only [transactions_append, harmed, hmiss hm]
    simp [statusRead, cwWrite, Op.isTransaction]
    omega
  | accepted pos a cw b sw c misses rest _ hlen hm _ hs =>
    have := hs.transactions_le
    simp only [transactions_append, harmed, hmiss hm]
    simp [statusRead, cwWrite, Op.isTransaction]
    omega

/-- Every line makes at most 107 transactions. -/
theorem CommandRun.transactions_le {g g' : Globals} {buf : List Char} {t : List Exchange}
    (h : CommandRun g buf g' t) : transactions t ≤ 107 := by
  cases h with
  | move _ _ _ _ _ hm => exact hm.transactions_le
  | set | show_param | increase | decrease | stop =>
    simp [posRead, cwWrite, Op.isTransaction]
  | empty | show_target | at_minimum | quit | ignored => decide

/-! ## §3. Every run of `main`. -/

theorem command_loop_transactions_le :
    ∀ (lines : List (List Char)) {g g' : Globals} {t : List Exchange},
      Prog.Path (command_loop g lines) g' t → transactions t ≤ 107 * lines.length
  | [], g, g', t, hp => by
    obtain ⟨rfl, rfl⟩ := hp.pure_inv
    exact Nat.zero_le _
  | buf :: rest, g, g', t, hp => by
    unfold command_loop at hp
    split at hp
    · obtain ⟨g1, t1, t2, rfl, h1, h2⟩ := hp.bind_inv
      have e₁ := (process_command_path h1).transactions_le
      have e₂ := command_loop_transactions_le rest h2
      rw [transactions_append, List.length_cons, Nat.mul_succ]
      omega
    · obtain ⟨rfl, rfl⟩ := hp.pure_inv
      exact Nat.zero_le _

/-- Every path of `main` over `n` lines makes at most `10 + 107 n` transactions. -/
theorem pp_main_path_transactions_le {node : BitVec 8} {lines : List (List Char)} {g : Globals}
    {t : List Exchange} (hp : Prog.Path (pp_main node lines) g t) :
    transactions t ≤ 10 + 107 * lines.length := by
  obtain ⟨t₁, b, t₂, t₃, e, hops, hloop, hend⟩ := pp_main_path hp
  have e₁ : transactions t₁ = 8 := by
    rw [transactions_eq_ops, hops]
    rfl
  have e₂ := command_loop_transactions_le lines hloop
  have e₃ : transactions t₃ ≤ 1 := by
    rcases hend with rfl | ⟨a, rfl⟩
    · decide
    · simp [cwWrite, Op.isTransaction]
  rw [e, transactions_append, transactions_append, transactions_cons]
  simp only [posRead, Op.isTransaction, if_true]
  omega

/-- Over every run of `main`, whatever the answers, at most `10 + 107 n` transactions for `n`
    input lines: `init_pp_mode`'s eight writes, the banner's read, at most 107 for each line,
    and the final Shutdown write. -/
theorem pp_main_transactions_le (node : BitVec 8) (lines : List (List Char)) (env : Prog.Env)
    (h : List Exchange) :
    transactions ((pp_main node lines).run env h).2 ≤ 10 + 107 * lines.length :=
  pp_main_path_transactions_le (Prog.path_run env (pp_main node lines) h)

end ErobCanopen

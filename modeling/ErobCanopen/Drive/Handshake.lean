/-
  ErobCanopen.Drive.Handshake
  ───────────────────────────
  **THE BUS CONTRACT OF ONE MOVE, OVER EVERY OUTCOME OF ITS TRANSACTIONS.**

  Read off `MoveRun`:
    * an out-of-range target makes no exchange at all;
    * an in-range target returns 0 exactly when the target write, the control-word read,
      the bit-4-set write, a status read with bit 12 among the first 50, and the bit-4-clear
      write all succeed in that order (`HandshakeOk` on the `decisive` exchanges);
    * the control word is written at most twice, the second time as the first with bit 4
      cleared;
    * each of the two status waits makes at most 50 reads;
    * the answers to position reads and everything after the release write never change the
      result (`decisive`).
-/
import ErobCanopen.Drive.Move

namespace ErobCanopen

/-! ## §1. The deciding exchanges. -/

/-- A control-word write with bit 4 clear: the release of step 5. -/
def IsRelease : Op → Bool
  | .write i _ d => i == 0x6040 && d &&& 0x10 == 0
  | _ => false

/-- The exchanges that decide a move: position reads with their answers blanked, and nothing
    after the first control-word write with bit 4 clear. -/
def decisive : List Exchange → List Exchange
  | [] => []
  | e :: t =>
    if e.1 = posRead then (posRead, none) :: decisive t
    else if IsRelease e.1 then [e]
    else e :: decisive t

/-- The success condition of a move on its deciding exchanges: the target write of `p`, the
    control-word read, the bit-4-set write, fewer than 50 status reads without bit 12 and then
    one with it, and the bit-4-clear write, all successful and in that order. -/
def HandshakeOk (p : BitVec 32) (d : List Exchange) : Prop :=
  ∃ (a cw b sw c : BitVec 32) (misses : List Exchange),
    d = [(posRead, none), (targetWrite p, some a), (cwRead, some cw),
          (cwWrite (cw ||| 0x10), some b)] ++ misses ++
        [(statusRead, some sw), (cwWrite (releaseWord cw), some c)] ∧
      misses.length < 50 ∧ (∀ e ∈ misses, Missed bit12Set e) ∧ bit12Set sw

/-- The control-word values written, in order. -/
def cwWrites (t : List Exchange) : List (BitVec 32) := writesTo 0x6040 t

/-- The status reads of a move come in at most two blocks of at most 50 reads each. -/
def StatusBlocks (t : List Exchange) : Prop :=
  ∃ t₁ t₂ t₃ t₄ t₅ : List Exchange, t = t₁ ++ t₂ ++ t₃ ++ t₄ ++ t₅ ∧
    t₂.length ≤ 50 ∧ t₄.length ≤ 50 ∧ (∀ e ∈ t₂ ++ t₄, e.1 = statusRead) ∧
    ∀ e ∈ t₁ ++ t₃ ++ t₅, e.1 ≠ statusRead

/-! ## §2. Bit 4 of the two control words. -/

theorem or_bit4_and_bit4 (cw : BitVec 32) : (cw ||| 0x10) &&& 0x10 = 0x10 := by
  ext i; simp only [BitVec.getLsbD_and, BitVec.getLsbD_or]; cases cw.getLsbD i <;> simp

theorem releaseWord_and_bit4 (cw : BitVec 32) : releaseWord cw &&& 0x10 = 0 := by
  ext i
  simp only [releaseWord, BitVec.getLsbD_and, BitVec.getLsbD_not, BitVec.getLsbD_or,
    BitVec.getLsbD_zero]
  cases (0x10 : BitVec 32).getLsbD i <;> simp

@[simp] theorem isRelease_cwWrite_set (cw : BitVec 32) :
    IsRelease (cwWrite (cw ||| 0x10)) = false := by
  dsimp only [IsRelease, cwWrite]
  rw [or_bit4_and_bit4]; decide

@[simp] theorem isRelease_cwWrite_release (cw : BitVec 32) :
    IsRelease (cwWrite (releaseWord cw)) = true := by
  dsimp only [IsRelease, cwWrite]
  rw [releaseWord_and_bit4]; decide

/-! ## §3. `decisive` along the pieces of a move. -/

/-- An exchange `decisive` keeps as it is. -/
def Kept (e : Exchange) : Prop := e.1 ≠ posRead ∧ IsRelease e.1 = false

theorem decisive_append_kept : ∀ {xs : List Exchange} (ys : List Exchange),
    (∀ e ∈ xs, Kept e) → decisive (xs ++ ys) = xs ++ decisive ys
  | [], _, _ => rfl
  | e :: xs, ys, h => by
    have he := h e (List.mem_cons_self _ _)
    rw [List.cons_append, decisive, if_neg he.1, if_neg (by rw [he.2]; decide),
      decisive_append_kept ys fun e' h' => h e' (List.mem_cons_of_mem _ h')]
    rfl

theorem decisive_of_kept {xs : List Exchange} (h : ∀ e ∈ xs, Kept e) : decisive xs = xs := by
  have := decisive_append_kept [] h
  rwa [List.append_nil, show decisive [] = [] from rfl, List.append_nil] at this

theorem kept_of_statusRead {e : Exchange} (h : e.1 = statusRead) : Kept e := by
  rw [Kept, h]; exact ⟨by decide, rfl⟩

theorem decisive_posRead (a : Answer) (t : List Exchange) :
    decisive ((posRead, a) :: t) = (posRead, none) :: decisive t := by
  simp [decisive]

theorem decisive_release {e : Exchange} (h : IsRelease e.1 = true) (t : List Exchange) :
    decisive (e :: t) = [e] := by
  have hp : e.1 ≠ posRead := fun he => by rw [he] at h; exact absurd h (by decide)
  simp [decisive, hp, h]

/-- The deciding exchanges of a move that got through step 3. -/
theorem decisive_armed (p : BitVec 32) (pos : Answer) (a cw b : BitVec 32) (t : List Exchange) :
    decisive (armed p pos a cw b ++ t) =
      [(posRead, none), (targetWrite p, some a), (cwRead, some cw),
        (cwWrite (cw ||| 0x10), some b)] ++ decisive t := by
  have hk : ∀ e ∈ [(targetWrite p, some a), (cwRead, some cw), (cwWrite (cw ||| 0x10), some b)],
      Kept e := by
    simp only [List.mem_cons, List.mem_singleton, List.not_mem_nil, or_false]
    rintro e (rfl | rfl | rfl)
    · exact ⟨by simp [posRead, targetWrite], rfl⟩
    · exact ⟨by simp [posRead, cwRead], rfl⟩
    · exact ⟨by simp [posRead, cwWrite], isRelease_cwWrite_set cw⟩
  rw [armed, List.cons_append, decisive_posRead, decisive_append_kept t hk]
  rfl

/-- Misses followed by a hit: the hit is at the same place in any two such lists. -/
theorem misses_hit_eq {P : Exchange → Prop} :
    ∀ {xs xs' : List Exchange} {y y' : Exchange} {ys ys' : List Exchange},
      (∀ e ∈ xs, P e) → (∀ e ∈ xs', P e) → ¬ P y → ¬ P y' →
    xs ++ y :: ys = xs' ++ y' :: ys' → xs = xs' ∧ y = y' ∧ ys = ys'
  | [], [], _, _, _, _, _, _, _, _, h => by simpa using h
  | [], x :: xs', _, _, _, _, _, hx', hy, _, h => by
    simp only [List.nil_append, List.cons_append, List.cons.injEq] at h
    exact absurd (h.1 ▸ hx' x (List.mem_cons_self _ _)) hy
  | x :: xs, [], _, _, _, _, hx, _, _, hy', h => by
    simp only [List.nil_append, List.cons_append, List.cons.injEq] at h
    exact absurd (h.1 ▸ hx x (List.mem_cons_self _ _)) hy'
  | x :: xs, x' :: xs', _, _, _, _, hx, hx', hy, hy', h => by
    simp only [List.cons_append, List.cons.injEq] at h
    obtain ⟨h1, h2, h3⟩ := misses_hit_eq (fun e he => hx e (List.mem_cons_of_mem _ he))
      (fun e he => hx' e (List.mem_cons_of_mem _ he)) hy hy' h.2
    exact ⟨by rw [h.1, h1], h2, h3⟩

/-- `decisive` never makes a trace longer. -/
theorem length_decisive_le : ∀ t : List Exchange, (decisive t).length ≤ t.length
  | [] => le_rfl
  | e :: t => by
    have := length_decisive_le t
    unfold decisive; split_ifs <;> simp <;> omega

theorem HandshakeOk.length_ge {p : BitVec 32} {d : List Exchange} (h : HandshakeOk p d) :
    6 ≤ d.length := by
  obtain ⟨a, cw, b, sw, c, misses, rfl, -⟩ := h
  simp

/-- The acknowledging status read is not a miss. -/
theorem not_missed_hit {sw : BitVec 32} (h : bit12Set sw = true) :
    ¬ Missed bit12Set (statusRead, some sw) :=
  fun hm => by rw [hm.2 sw rfl] at h; exact absurd h (by decide)

/-- The deciding exchanges of a move that reached its release write. -/
theorem decisive_released (p : BitVec 32) (pos : Answer) (a cw b sw : BitVec 32)
    (misses : List Exchange) (hm : ∀ e ∈ misses, Missed bit12Set e) (rc : Answer)
    (rest : List Exchange) :
    decisive (armed p pos a cw b ++ misses ++
        [(statusRead, some sw), (cwWrite (releaseWord cw), rc)] ++ rest) =
      [(posRead, none), (targetWrite p, some a), (cwRead, some cw),
        (cwWrite (cw ||| 0x10), some b)] ++ misses ++
        [(statusRead, some sw), (cwWrite (releaseWord cw), rc)] := by
  have hk : ∀ e ∈ misses ++ [(statusRead, some sw)], Kept e := fun e he => by
    rcases List.mem_append.mp he with he | he
    · exact kept_of_statusRead (hm e he).1
    · rw [List.mem_singleton.mp he]; exact kept_of_statusRead rfl
  rw [List.append_assoc, List.append_assoc, decisive_armed, ← List.append_assoc misses,
    show [(statusRead, some sw), (cwWrite (releaseWord cw), rc)] =
      [(statusRead, some sw)] ++ [(cwWrite (releaseWord cw), rc)] from rfl,
    ← List.append_assoc, List.append_assoc _ [_], decisive_append_kept _ hk,
    List.singleton_append, decisive_release (isRelease_cwWrite_release cw)]
  simp

/-! ## §4. The contract, case by case. -/

/-- An in-range move returns 0 exactly when its deciding exchanges are a successful
    handshake. -/
theorem MoveRun.result_eq_zero_iff {p : BitVec 32} {r : Int} {t : List Exchange}
    (h : MoveRun p r t) (hin : InRange p) : r = 0 ↔ HandshakeOk p (decisive t) := by
  have short : ∀ t : List Exchange, t.length ≤ 4 → ¬ HandshakeOk p (decisive t) :=
    fun t ht hok => by have := hok.length_ge; have := length_decisive_le t; omega
  cases h with
  | out_of_range hout => exact absurd hin hout
  | target_failed pos =>
    exact ⟨fun h => absurd h (by decide), fun hok => (short _ (by simp) hok).elim⟩
  | read_failed pos a =>
    exact ⟨fun h => absurd h (by decide), fun hok => (short _ (by simp) hok).elim⟩
  | set_failed pos a cw =>
    exact ⟨fun h => absurd h (by decide), fun hok => (short _ (by simp) hok).elim⟩
  | ack_timeout pos a cw b misses _ hlen hm =>
    refine ⟨fun h => absurd h (by decide),
      fun ⟨a', cw', b', sw', c', ms, heq, _, _, hsw⟩ => ?_⟩
    rw [decisive_armed, decisive_of_kept fun e he => kept_of_statusRead (hm e he).1,
      List.append_assoc] at heq
    obtain ⟨-, heq⟩ := List.append_inj heq rfl
    have : (statusRead, some sw') ∈ misses := by rw [heq]; simp
    exact (not_missed_hit hsw (hm _ this)).elim
  | release_failed pos a cw b sw misses _ hlen hm hsw =>
    refine ⟨fun h => absurd h (by decide),
      fun ⟨a', cw', b', sw', c', ms, heq, _, hms, hsw'⟩ => ?_⟩
    have := decisive_released p pos a cw b sw misses hm none []
    rw [List.append_nil] at this
    rw [this, List.append_assoc, List.append_assoc] at heq
    obtain ⟨heq1, heq⟩ := List.append_inj heq rfl
    have hcw : cw = cw' := by simp at heq1; exact heq1.2.1
    subst hcw
    obtain ⟨-, -, h3⟩ := misses_hit_eq hm hms (not_missed_hit hsw) (not_missed_hit hsw') heq
    simp at h3
  | accepted pos a cw b sw c misses rest _ hlen hm hsw _ =>
    exact ⟨fun _ => ⟨a, cw, b, sw, c, misses,
      decisive_released p pos a cw b sw misses hm (some c) rest, hlen, hm, hsw⟩, fun _ => rfl⟩

/-- Every call returns 0 or −1. -/
theorem MoveRun.result_cases {p : BitVec 32} {r : Int} {t : List Exchange} (h : MoveRun p r t) :
    r = 0 ∨ r = -1 := by
  cases h <;> simp

theorem writesTo_of_statusReads {t : List Exchange} (h : ∀ e ∈ t, e.1 = statusRead)
    (i : BitVec 16) : writesTo i t = [] := by
  simp only [writesTo, List.filterMap_eq_nil_iff, List.mem_map]
  rintro _ ⟨e, he, rfl⟩
  rw [h e he]; rfl

theorem Settle.writesTo_eq_nil {cur : Answer} {t : List Exchange} (h : Settle cur t)
    (i : BitVec 16) : writesTo i t = [] := by
  cases h with
  | unread w _ _ hw => simp [writesTo_of_statusReads hw, posRead]
  | reread w _ _ _ _ hw => simp [writesTo_of_statusReads hw, posRead]

/-- The control word is written at most twice: first with bit 4 set, then the same word with
    bit 4 cleared. -/
theorem MoveRun.cwWrites_prefix {p : BitVec 32} {r : Int} {t : List Exchange} (h : MoveRun p r t) :
    ∃ w, w &&& 0x10 = 0x10 ∧ cwWrites t <+: [w, w &&& ~~~0x10] := by
  cases h with
  | out_of_range => exact ⟨0x10, by decide, List.nil_prefix⟩
  | target_failed => exact ⟨0x10, by decide, by simp [cwWrites, posRead, targetWrite]⟩
  | read_failed => exact ⟨0x10, by decide, by simp [cwWrites, posRead, targetWrite, cwRead]⟩
  | set_failed pos a cw =>
    refine ⟨cw ||| 0x10, or_bit4_and_bit4 cw, ?_⟩
    simp [cwWrites, posRead, targetWrite, cwRead, cwWrite]
  | ack_timeout pos a cw b misses _ _ hm =>
    refine ⟨cw ||| 0x10, or_bit4_and_bit4 cw, ?_⟩
    simp [armed, cwWrites, posRead, targetWrite, cwRead, cwWrite,
      writesTo_of_statusReads fun e he => (hm e he).1]
  | release_failed pos a cw b sw misses _ _ hm =>
    refine ⟨cw ||| 0x10, or_bit4_and_bit4 cw, ?_⟩
    simp [armed, cwWrites, posRead, targetWrite, cwRead, cwWrite, statusRead, releaseWord,
      writesTo_of_statusReads fun e he => (hm e he).1]
  | accepted pos a cw b sw c misses rest _ _ hm _ hs =>
    refine ⟨cw ||| 0x10, or_bit4_and_bit4 cw, ?_⟩
    simp [armed, cwWrites, posRead, targetWrite, cwRead, cwWrite, statusRead, releaseWord,
      writesTo_of_statusReads fun e he => (hm e he).1, hs.writesTo_eq_nil]

/-- A move writes the target position once, and only when it is in range. -/
theorem MoveRun.writesTo_target {p : BitVec 32} {r : Int} {t : List Exchange} (h : MoveRun p r t) :
    writesTo 0x607A t = if InRange p then [p] else [] := by
  cases h with
  | out_of_range hr => simp [hr]
  | target_failed _ hr => simp [hr, posRead, targetWrite]
  | read_failed _ _ hr => simp [hr, posRead, targetWrite, cwRead]
  | set_failed _ _ _ hr => simp [hr, posRead, targetWrite, cwRead, cwWrite]
  | ack_timeout _ _ _ _ _ hr _ hw =>
    simp [hr, armed, posRead, targetWrite, cwRead, cwWrite,
      writesTo_of_statusReads fun e he => (hw e he).1]
  | release_failed _ _ _ _ _ _ hr _ hw =>
    simp [hr, armed, posRead, targetWrite, cwRead, cwWrite, statusRead,
      writesTo_of_statusReads fun e he => (hw e he).1]
  | accepted _ _ _ _ _ _ _ _ hr _ hw _ hs =>
    simp [hr, armed, posRead, targetWrite, cwRead, cwWrite, statusRead,
      writesTo_of_statusReads fun e he => (hw e he).1, hs.writesTo_eq_nil]

/-- A move writes no object but the target position and the control word. -/
theorem MoveRun.writesTo_eq_nil {p : BitVec 32} {r : Int} {t : List Exchange} (h : MoveRun p r t)
    {i : BitVec 16} (h1 : (0x607A : BitVec 16) ≠ i) (h2 : (0x6040 : BitVec 16) ≠ i) :
    writesTo i t = [] := by
  have hm : ∀ {ms : List Exchange}, (∀ e ∈ ms, Missed bit12Set e) → writesTo i ms = [] :=
    fun hm => writesTo_of_statusReads (fun e he => (hm e he).1) i
  cases h with
  | out_of_range => rfl
  | target_failed | read_failed | set_failed =>
    simp only [posRead, targetWrite, cwRead, cwWrite, writesTo_cons, writesTo_nil,
      Op.writeTo_read, Op.writeTo_write, if_neg h1, if_neg h2, Option.toList, List.nil_append]
  | ack_timeout _ _ _ _ _ _ _ hw =>
    simp only [armed, posRead, targetWrite, cwRead, cwWrite, writesTo_append, writesTo_cons,
      writesTo_nil, Op.writeTo_read, Op.writeTo_write, if_neg h1, if_neg h2, Option.toList, hm hw,
      List.nil_append, List.append_nil]
  | release_failed _ _ _ _ _ _ _ _ hw =>
    simp only [armed, posRead, targetWrite, cwRead, cwWrite, statusRead, writesTo_append,
      writesTo_cons, writesTo_nil, Op.writeTo_read, Op.writeTo_write, if_neg h1, if_neg h2,
      Option.toList, hm hw, List.nil_append, List.append_nil]
  | accepted _ _ _ _ _ _ _ _ _ _ hw _ hs =>
    simp only [armed, posRead, targetWrite, cwRead, cwWrite, statusRead, writesTo_append,
      writesTo_cons, writesTo_nil, Op.writeTo_read, Op.writeTo_write, if_neg h1, if_neg h2,
      Option.toList, hm hw, hs.writesTo_eq_nil, List.nil_append, List.append_nil]

/-- Of the requests a move makes, only the status read is one. -/
theorem posRead_ne_statusRead : posRead ≠ statusRead := by decide

theorem cwRead_ne_statusRead : cwRead ≠ statusRead := by decide

theorem cwWrite_ne_statusRead (w : BitVec 32) : cwWrite w ≠ statusRead := nofun

theorem targetWrite_ne_statusRead (p : BitVec 32) : targetWrite p ≠ statusRead := nofun

theorem armed_ne_statusRead (p : BitVec 32) (pos : Answer) (a cw b : BitVec 32) :
    ∀ e ∈ armed p pos a cw b, e.1 ≠ statusRead := by
  simp only [armed, List.forall_mem_cons, List.not_mem_nil, false_implies, implies_true, and_true]
  exact ⟨posRead_ne_statusRead, targetWrite_ne_statusRead p, cwRead_ne_statusRead,
    cwWrite_ne_statusRead _⟩

theorem StatusBlocks.of_none {t : List Exchange} (h : ∀ e ∈ t, e.1 ≠ statusRead) :
    StatusBlocks t :=
  ⟨t, [], [], [], [], by simp, by simp, by simp, by simp, by simpa using h⟩

/-- The tail of an accepted move: one block of at most 50 status reads, then none. -/
theorem Settle.blocks {cur : Answer} {t : List Exchange} (h : Settle cur t) :
    ∃ w rest, t = w ++ rest ∧ w.length ≤ 50 ∧ (∀ e ∈ w, e.1 = statusRead) ∧
      ∀ e ∈ rest, e.1 ≠ statusRead := by
  cases h with
  | unread w pos2 hw hws => exact ⟨w, _, rfl, hw, hws, by simp [posRead_ne_statusRead]⟩
  | reread w new ack pos2 hw hws =>
    exact ⟨w, _, rfl, hw, hws, by
      simp only [List.forall_mem_cons, List.not_mem_nil, false_implies, implies_true, and_true]
      exact ⟨posRead_ne_statusRead, nofun, posRead_ne_statusRead⟩⟩

/-- The status reads of a move: the reads of the first wait, then those of the second. -/
theorem MoveRun.statusBlocks {p : BitVec 32} {r : Int} {t : List Exchange} (h : MoveRun p r t) :
    StatusBlocks t := by
  have release_ne : ∀ pos a cw b x,
      ∀ e ∈ armed p pos a cw b ++ [(cwWrite (releaseWord cw), x)], e.1 ≠ statusRead := by
    simp only [List.mem_append, List.mem_singleton]
    rintro pos a cw b x e (he | rfl)
    · exact armed_ne_statusRead p pos a cw b e he
    · exact cwWrite_ne_statusRead _
  have hit_ok : ∀ (ms : List Exchange) sw, ms.length < 50 →
      (∀ e ∈ ms, Missed bit12Set e) → (ms ++ [(statusRead, some sw)]).length ≤ 50 ∧
        ∀ e ∈ ms ++ [(statusRead, some sw)], e.1 = statusRead := fun ms sw hl hm =>
    ⟨by rw [List.length_append]; exact hl, fun e he => by
      rcases List.mem_append.mp he with he | he
      · exact (hm e he).1
      · rw [List.mem_singleton.mp he]⟩
  cases h with
  | out_of_range => exact .of_none (by simp)
  | target_failed | read_failed | set_failed =>
    exact .of_none (by simp [posRead_ne_statusRead, targetWrite_ne_statusRead,
      cwRead_ne_statusRead, cwWrite_ne_statusRead])
  | ack_timeout pos a cw b misses _ hlen hm =>
    refine ⟨armed p pos a cw b, misses, [], [], [], by simp only [List.append_nil], hlen.le,
      Nat.zero_le _, ?_, ?_⟩
    · simpa using fun e he => (hm e he).1
    · simpa using armed_ne_statusRead p pos a cw b
  | release_failed pos a cw b sw misses _ hlen hm =>
    obtain ⟨hl, hs⟩ := hit_ok misses sw hlen hm
    refine ⟨armed p pos a cw b, _, [(cwWrite (releaseWord cw), none)], [], [],
      by simp only [List.append_nil, List.append_assoc, List.singleton_append], hl,
      Nat.zero_le _, by simpa using hs, ?_⟩
    simpa [List.append_assoc] using release_ne pos a cw b none
  | accepted pos a cw b sw c misses rest _ hlen hm _ hs =>
    obtain ⟨hl, hsr⟩ := hit_ok misses sw hlen hm
    obtain ⟨w, tail, rfl, hw, hws, htail⟩ := hs.blocks
    refine ⟨armed p pos a cw b, _, [(cwWrite (releaseWord cw), some c)], w, tail,
      by simp only [List.append_assoc, List.singleton_append], hl,
      hw, fun e he => (List.mem_append.mp he).elim (hsr e) (hws e), fun e he => ?_⟩
    rcases List.mem_append.mp he with he | he
    · exact release_ne pos a cw b _ e (by simpa using he)
    · exact htail e he

/-- An out-of-range call makes no exchange and returns −1. -/
theorem MoveRun.eq_of_not_inRange {p : BitVec 32} {r : Int} {t : List Exchange}
    (h : MoveRun p r t) (hout : ¬ InRange p) : r = -1 ∧ t = [] := by
  cases h <;> first | exact ⟨rfl, rfl⟩ | contradiction

/-- The result of a move is decided by its `decisive` exchanges. -/
theorem MoveRun.result_eq_of_decisive {p : BitVec 32} {r r' : Int} {t t' : List Exchange}
    (h : MoveRun p r t) (h' : MoveRun p r' t') (hd : decisive t' = decisive t) : r' = r := by
  by_cases hin : InRange p
  · have e := (h.result_eq_zero_iff hin).trans (hd ▸ (h'.result_eq_zero_iff hin).symm)
    rcases h.result_cases with rfl | rfl <;> rcases h'.result_cases with rfl | rfl <;> simp_all
  · rw [(h.eq_of_not_inRange hin).1, (h'.eq_of_not_inRange hin).1]

/-! ## §5. The contract of `execute_position_move`. -/

/-- For every target `p` and every outcome of every transaction of the call (any environment,
    after any history): the call runs one of the paths `MoveRun` lists, so an in-range target
    reads the position, writes it to `0x607A`, and sets bit 4 before any wait; an out-of-range
    target makes no exchange and returns −1; an in-range
    one returns 0 exactly when its deciding exchanges are a successful handshake; the control
    word is written at most twice, first with bit 4 set and then the same word with bit 4
    clear; each status wait makes at most 50 reads; and two calls with the same deciding
    exchanges — whatever the position reads and the bit-12-clear wait answered — return the
    same. -/
theorem execute_position_move_bus_contract (p : BitVec 32) (env : Prog.Env) (h : List Exchange) :
    let x := (execute_position_move p).run env h
    MoveRun p x.1 x.2 ∧
    (¬ InRange p → x = (-1, [])) ∧
    (InRange p → (x.1 = 0 ↔ HandshakeOk p (decisive x.2))) ∧
    (∃ w, w &&& 0x10 = 0x10 ∧ cwWrites x.2 <+: [w, w &&& ~~~0x10]) ∧
    StatusBlocks x.2 ∧
    ∀ (env' : Prog.Env) (h' : List Exchange),
      decisive ((execute_position_move p).run env' h').2 = decisive x.2 →
        ((execute_position_move p).run env' h').1 = x.1 := by
  intro x
  have hx := execute_position_move_path (Prog.path_run env (execute_position_move p) h)
  refine ⟨hx, fun hout => ?_, hx.result_eq_zero_iff, hx.cwWrites_prefix, hx.statusBlocks,
    fun env' h' hd =>
      hx.result_eq_of_decisive (execute_position_move_path (Prog.path_run env' _ h')) hd⟩
  obtain ⟨h1, h2⟩ := hx.eq_of_not_inRange hout
  exact Prod.ext h1 h2

end ErobCanopen

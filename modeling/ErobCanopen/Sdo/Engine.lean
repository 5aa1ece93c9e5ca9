/-
  ErobCanopen.Sdo.Engine
  ──────────────────────
  **ONE SDO TRANSACTION ON THE WIRE: `send_sdo_request` AND `receive_sdo_response`.**

  `send_sdo_request` builds one expedited request frame; its command byte for a download
  comes from `get_object_size`.  `receive_sdo_response` polls the socket in 10 ms slices until
  `TIMEOUT_MS` has elapsed and decides each frame it reads on its own: a frame from
  `0x580 + current_motor_id` whose class `data[0] & 0xE0` is `0x40`, `0x60` or `0x80` ends the
  call, everything else is skipped.

  Time is not modelled as a clock: a call of `receive_sdo_response` is given the frames it
  reads before its deadline, in arrival order (what was already queued on the socket, then
  what arrived within the window).  It returns what the C function returns through `*data`
  — `some v` for a return of 0 having stored `v`, `none` for a return of −1 with `*data`
  untouched — and the frames it left unread.

  `quick_scan.c` and the inline loop of `auto_detect_motor` poll the same way but accept only
  an upload response; all three are `receiveWith` applied to their own frame verdict.

  Main results:
    * `receiveWith_cons_skip` / `_accept` / `_abort` — one polled frame, spec lemmas;
    * `control_word_download_cmd` — for every EDS text, a control-word download is framed
      with the 2-byte command `0x2B`;
    * `upload_payload_decoded` — every value laid out in an upload response is decoded by all
      three receive paths, while their C `int` assembly overflows when bit 31 is set;
    * `receive_sdo_response_relevant_only` — only the frames from the node's COB-ID with an
      upload, download or abort class decide a call, in the order they arrive.
-/
import ErobCanopen.Wire.Frame
import ErobCanopen.Dictionary.Eds

namespace ErobCanopen

/-! ## §1. The request frame. -/

/-- `send_sdo_request`: the frame written to the socket for node `node`, with the object
    dictionary `od` choosing the expedited download size. -/
def send_sdo_request (node : BitVec 8) (od : ObjectDict) (index : BitVec 16)
    (subindex : BitVec 8) (data : BitVec 32) (is_write : Bool) : CanFrame :=
  let data_size := get_object_size od index subindex
  if is_write then
    sdoFrame (sdoClientCob node)
      (if data_size = 1 then 0x2F else if data_size = 2 then 0x2B else 0x23) index subindex data
  else sdoFrame (sdoClientCob node) 0x40 index subindex 0

/-! ## §2. Polling for the answer. -/

/-- What a receive loop does with one frame it reads. -/
inductive Verdict where
  /-- Not an answer: keep polling. -/
  | skip
  /-- Return 0, storing the value through `*data`. -/
  | accept (data : BitVec 32)
  /-- Return −1 at once (an SDO abort). -/
  | abort
  deriving DecidableEq, Repr

/-- A receive loop over the frames read before the deadline: the first frame that is not
    skipped decides the call; running out of frames is the timeout (−1). -/
def receiveWith (verdict : CanFrame → Verdict) :
    List CanFrame → Option (BitVec 32) × List CanFrame
  | [] => (none, [])
  | f :: rest =>
    match verdict f with
    | .skip => receiveWith verdict rest
    | .accept v => (some v, rest)
    | .abort => (none, rest)

/-- The frame test of `pp_mode_control.c`'s `receive_sdo_response`: only the COB-ID
    `0x580 + current_motor_id` and the command class are looked at. -/
def sdoVerdict (node : BitVec 8) (f : CanFrame) : Verdict :=
  if f.can_id = sdoServerCob node then
    if cmdClass f = 0x40 then .accept (payload f)        -- Upload response
    else if cmdClass f = 0x60 then .accept 0             -- Download response
    else if cmdClass f = 0x80 then .abort                -- Error response
    else .skip
  else .skip

/-- `receive_sdo_response` of `pp_mode_control.c`. -/
def receive_sdo_response (node : BitVec 8) (frames : List CanFrame) :
    Option (BitVec 32) × List CanFrame :=
  receiveWith (sdoVerdict node) frames

/-- The frame test of `quick_scan.c`'s `receive_sdo_response` and of the inline loop of
    `auto_detect_motor`: only an upload response from the node ends the wait. -/
def uploadVerdict (node : BitVec 8) (f : CanFrame) : Verdict :=
  if f.can_id = sdoServerCob node ∧ cmdClass f = 0x40 then .accept (payload f) else .skip

@[simp] theorem receiveWith_nil (verdict : CanFrame → Verdict) :
    receiveWith verdict [] = (none, []) := rfl

theorem receiveWith_cons_skip {verdict : CanFrame → Verdict} {f : CanFrame}
    (h : verdict f = .skip) (rest : List CanFrame) :
    receiveWith verdict (f :: rest) = receiveWith verdict rest := by
  simp only [receiveWith, h]

theorem receiveWith_cons_accept {verdict : CanFrame → Verdict} {f : CanFrame} {v : BitVec 32}
    (h : verdict f = .accept v) (rest : List CanFrame) :
    receiveWith verdict (f :: rest) = (some v, rest) := by
  simp only [receiveWith, h]

theorem receiveWith_cons_abort {verdict : CanFrame → Verdict} {f : CanFrame}
    (h : verdict f = .abort) (rest : List CanFrame) :
    receiveWith verdict (f :: rest) = (none, rest) := by
  simp only [receiveWith, h]

/-- A frame from another COB-ID is skipped. -/
theorem sdoVerdict_of_can_id_ne {node : BitVec 8} {f : CanFrame}
    (h : f.can_id ≠ sdoServerCob node) : sdoVerdict node f = .skip := by
  simp only [sdoVerdict, h, if_false]

/-- Every verdict of `sdoVerdict` other than `skip` is on a frame from the node's COB-ID. -/
theorem can_id_of_sdoVerdict_ne_skip {node : BitVec 8} {f : CanFrame}
    (h : sdoVerdict node f ≠ .skip) : f.can_id = sdoServerCob node := by
  by_contra hne
  exact h (sdoVerdict_of_can_id_ne hne)

/-! ## §3. The control word is framed as a 2-byte download. -/

/-- The download command byte `send_sdo_request` picks for a size-2 object is `0x2B`. -/
theorem send_sdo_request_cmd_of_size {node : BitVec 8} {od : ObjectDict} {index : BitVec 16}
    {subindex : BitVec 8} (h : get_object_size od index subindex = 2) (data : BitVec 32) :
    (send_sdo_request node od index subindex data true).data 0 = 0x2B := by
  simp only [send_sdo_request, h, if_true, sdoFrame_cmd]
  decide

/-- For every EDS file content (or none) and every subindex: `get_object_size` answers 2 for
    the control word, and every control-word download is framed with command `0x2B`. -/
theorem control_word_download_cmd (file : Option (List Char)) (subindex : BitVec 8)
    (node : BitVec 8) (data : BitVec 32) :
    get_object_size (parse_eds_file ObjectDict.empty file).2 0x6040 subindex = 2 ∧
      (send_sdo_request node (parse_eds_file ObjectDict.empty file).2 0x6040 subindex data
        true).data 0 = 0x2B :=
  have h := get_object_size_of_entries (parse_eds_file_control_word file) subindex
  ⟨h, send_sdo_request_cmd_of_size h data⟩

/-! ## §4. Decoding an upload response. -/

/-- A value laid out in bytes 4–7 of an upload response from the node is what all three
    receive paths decode; the C `int` assembly they share is defined exactly when the value's
    bit 31 is clear. -/
theorem upload_payload_decoded (node cmd : BitVec 8) (index : BitVec 16) (subindex : BitVec 8)
    (v : BitVec 32) (hcmd : cmd &&& 0xE0 = 0x40) :
    sdoVerdict node (sdoFrame (sdoServerCob node) cmd index subindex v) = .accept v ∧
      uploadVerdict node (sdoFrame (sdoServerCob node) cmd index subindex v) = .accept v ∧
      (payloadInt (sdoFrame (sdoServerCob node) cmd index subindex v) = none ↔
        2 ^ 31 ≤ v.toNat) := by
  have hc : cmdClass (sdoFrame (sdoServerCob node) cmd index subindex v) = 0x40 := hcmd
  refine ⟨?_, ?_, payloadInt_sdoFrame_eq_none_iff _ _ _ _ v⟩
  · rw [sdoVerdict, if_pos (sdoFrame_can_id _ _ _ _ _), if_pos hc, payload_sdoFrame]
  · rw [uploadVerdict, if_pos ⟨sdoFrame_can_id _ _ _ _ _, hc⟩, payload_sdoFrame]

/-- A negative actual position, `0x80000000`, read from node 2: every receive path stores
    `0x80000000`, but `frame.data[7] << 24` shifts `0x80` into the sign bit of an `int`. -/
theorem upload_top_bit_overflows :
    (receive_sdo_response 2 [sdoFrame (sdoServerCob 2) 0x43 0x6064 0 0x80000000]).1 =
        some 0x80000000 ∧
      (receiveWith (uploadVerdict 2) [sdoFrame (sdoServerCob 2) 0x43 0x6064 0 0x80000000]).1 =
        some 0x80000000 ∧
      payloadInt (sdoFrame (sdoServerCob 2) 0x43 0x6064 0 0x80000000) = none := by
  obtain ⟨h1, h2, h3⟩ := upload_payload_decoded 2 0x43 0x6064 0 0x80000000 (by decide)
  exact ⟨by rw [receive_sdo_response, receiveWith_cons_accept h1],
    by rw [receiveWith_cons_accept h2], h3.mpr (by decide)⟩

/-! ## §5. Only the frames that decide count. -/

/-- A frame `receive_sdo_response` acts on: from `0x580 + current_motor_id`, of command class
    upload (`0x40`), download (`0x60`) or abort (`0x80`). -/
def Relevant (node : BitVec 8) (f : CanFrame) : Bool :=
  f.can_id == sdoServerCob node &&
    (cmdClass f == 0x40 || cmdClass f == 0x60 || cmdClass f == 0x80)

theorem sdoVerdict_ne_skip (node : BitVec 8) (f : CanFrame) :
    (sdoVerdict node f != .skip) = Relevant node f := by
  unfold sdoVerdict Relevant
  by_cases h1 : f.can_id = sdoServerCob node
  · by_cases h2 : cmdClass f = 0x40
    · simp [h1, h2]
    by_cases h3 : cmdClass f = 0x60
    · simp [h1, h3]
    by_cases h4 : cmdClass f = 0x80 <;> simp_all
  · simp [h1]

/-- A receive loop decides as it would on its non-skipped frames alone. -/
theorem receiveWith_fst_filter (verdict : CanFrame → Verdict) :
    ∀ frames : List CanFrame, (receiveWith verdict frames).1 =
      (receiveWith verdict (frames.filter fun f => verdict f != .skip)).1
  | [] => rfl
  | f :: rest => by
    cases h : verdict f with
    | skip =>
      rw [receiveWith_cons_skip h, List.filter_cons, if_neg (by simp [h])]
      exact receiveWith_fst_filter verdict rest
    | accept v =>
      rw [receiveWith_cons_accept h, List.filter_cons, if_pos (by simp [h]),
        receiveWith_cons_accept h]
    | abort =>
      rw [receiveWith_cons_abort h, List.filter_cons, if_pos (by simp [h]),
        receiveWith_cons_abort h]

/-- Frames from other COB-IDs, or of other command classes, inserted or deleted anywhere,
    change neither the return value of `receive_sdo_response` nor `*data`; when the first
    relevant frame is an abort, or none arrives, it returns −1 and leaves `*data` alone. -/
theorem receive_sdo_response_relevant_only (node : BitVec 8) :
    (∀ frames frames' : List CanFrame,
      frames.filter (Relevant node) = frames'.filter (Relevant node) →
        (receive_sdo_response node frames).1 = (receive_sdo_response node frames').1) ∧
    ∀ frames : List CanFrame,
      (∀ f ∈ (frames.filter (Relevant node)).head?, cmdClass f = 0x80) →
        (receive_sdo_response node frames).1 = none := by
  have hrel : (fun f => sdoVerdict node f != .skip) = Relevant node :=
    funext (sdoVerdict_ne_skip node)
  have hfirst : ∀ frames : List CanFrame, (receive_sdo_response node frames).1 =
      (receiveWith (sdoVerdict node) (frames.filter (Relevant node))).1 := fun frames => by
    rw [receive_sdo_response, receiveWith_fst_filter, hrel]
  refine ⟨fun frames frames' h => by rw [hfirst, hfirst frames', h], fun frames habort => ?_⟩
  rw [hfirst]
  cases hl : frames.filter (Relevant node) with
  | nil => rfl
  | cons f rest =>
    have hf : Relevant node f = true := (List.mem_filter.mp (hl ▸ List.mem_cons_self f rest)).2
    have hc : cmdClass f = 0x80 := habort f (by rw [hl]; rfl)
    have hid : f.can_id = sdoServerCob node := by
      simpa [Relevant] using ((Bool.and_eq_true _ _).mp hf).1
    have hv : sdoVerdict node f = .abort := by
      rw [sdoVerdict, if_pos hid, hc, if_neg (by decide : (0x80 : BitVec 8) ≠ 0x40),
        if_neg (by decide : (0x80 : BitVec 8) ≠ 0x60), if_pos rfl]
    rw [receiveWith_cons_abort hv]

/-- Frames the loop skips, in front of the others, change nothing. -/
theorem receiveWith_append_of_skip {verdict : CanFrame → Verdict} :
    ∀ {skipped : List CanFrame}, (∀ f ∈ skipped, verdict f = .skip) → ∀ rest : List CanFrame,
      receiveWith verdict (skipped ++ rest) = receiveWith verdict rest
  | [], _, _ => rfl
  | f :: fs, h, rest => by
    rw [List.cons_append, receiveWith_cons_skip (h f (List.mem_cons_self f fs))]
    exact receiveWith_append_of_skip (fun g hg => h g (List.mem_cons_of_mem f hg)) rest

/-- What a receive loop leaves queued are the frames after the one that decided it. -/
theorem receiveWith_snd_suffix (verdict : CanFrame → Verdict) :
    ∀ frames : List CanFrame, (receiveWith verdict frames).2 <:+ frames
  | [] => List.suffix_refl []
  | f :: rest => by
    cases h : verdict f with
    | skip =>
      rw [receiveWith_cons_skip h]
      exact (receiveWith_snd_suffix verdict rest).trans (List.suffix_cons f rest)
    | accept v => rw [receiveWith_cons_accept h]; exact List.suffix_cons f rest
    | abort => rw [receiveWith_cons_abort h]; exact List.suffix_cons f rest

theorem uploadVerdict_of_can_id_ne {node : BitVec 8} {f : CanFrame}
    (h : f.can_id ≠ sdoServerCob node) : uploadVerdict node f = .skip := by
  rw [uploadVerdict, if_neg fun hc => h hc.1]

/-- A frame from node 3 in front of node 2's answer, and a frame from node 3 alone. -/
theorem foreign_frames_change_nothing :
    (receive_sdo_response 2 [sdoFrame (sdoServerCob 3) 0x43 0x6064 0 5,
        sdoFrame (sdoServerCob 2) 0x43 0x6064 0 7]).1 =
      (receive_sdo_response 2 [sdoFrame (sdoServerCob 2) 0x43 0x6064 0 7]).1 ∧
    (receive_sdo_response 2 [sdoFrame (sdoServerCob 3) 0x43 0x6064 0 5]).1 = none :=
  ⟨(receive_sdo_response_relevant_only 2).1 _ _ rfl,
    (receive_sdo_response_relevant_only 2).2 _ fun _ hf => nomatch hf⟩

end ErobCanopen

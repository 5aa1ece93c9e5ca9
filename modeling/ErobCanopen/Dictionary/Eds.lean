/-
  ErobCanopen.Dictionary.Eds
  ──────────────────────────
  **THE OBJECT DICTIONARY: `parse_eds_file` AND `get_object_size`.**

  `parse_eds_file` reads the EDS text line by line (`fgets` into a 256-byte buffer, cut at the
  first `\r`/`\n`) and runs a small machine over four locals — `current_index`,
  `current_subindex`, `current_data_type`, `in_object` — appending one entry to the global
  `object_dict` whenever an `AccessType=` line closes a section whose data type is non-zero
  and fewer than 100 entries are stored.  `get_object_size` returns the size of the FIRST
  stored entry with the key, else a fixed default.

  The model keeps that shape exactly: `parse_eds_line` is one iteration of the `while` loop,
  `parse_eds_file` folds it over `fgets_lines 256`.  The 100-entry array is a structure whose
  bound is a field, so an entry is only appended under the code's own guard.

  Main results:
    * `parse_eds_line_cases` — the four things one line can do to the parser state;
    * `parse_eds_file_control_word` — every stored `0x6040` entry has size 2, whatever the text;
    * `get_object_size_of_entries` — hence `get_object_size 0x6040 s = 2` for every text.
-/
import ErobCanopen.Wire.CString

namespace ErobCanopen

/-! ## §1. The dictionary. -/

/-- `object_dict_entry_t`. -/
structure ObjectDictEntry where
  index : BitVec 16
  subindex : BitVec 8
  data_size : BitVec 8
  deriving DecidableEq, Repr

/-- `object_dict[100]` with `object_dict_count`: the entries in use, at most 100 of them. -/
structure ObjectDict where
  entries : List ObjectDictEntry
  bounded : entries.length ≤ 100

/-- The dictionary before any EDS text is read (`object_dict_count = 0`). -/
def ObjectDict.empty : ObjectDict := ⟨[], by decide⟩

/-- `object_dict[object_dict_count++] = e`, allowed by the guard `object_dict_count < 100`. -/
def ObjectDict.push (od : ObjectDict) (e : ObjectDictEntry) (h : od.entries.length < 100) :
    ObjectDict :=
  ⟨od.entries ++ [e], by rw [List.length_append, List.length_singleton]; omega⟩

@[simp] theorem ObjectDict.push_entries (od : ObjectDict) (e : ObjectDictEntry)
    (h : od.entries.length < 100) : (od.push e h).entries = od.entries ++ [e] := rfl

/-- `get_data_type_size`: wire size of an EDS basic data type. -/
def get_data_type_size (data_type : BitVec 16) : BitVec 8 :=
  match data_type.toNat with
  | 0x0001 => 1  -- BOOLEAN
  | 0x0002 => 1  -- INTEGER8
  | 0x0003 => 2  -- INTEGER16
  | 0x0004 => 4  -- INTEGER32
  | 0x0005 => 1  -- UNSIGNED8
  | 0x0006 => 2  -- UNSIGNED16
  | 0x0007 => 4  -- UNSIGNED32
  | 0x0008 => 8  -- REAL32
  | _ => 2

/-- `get_object_size`: the size of the first stored entry with the key, else the built-in
    defaults (control word 2, mode of operation 1, everything else 4). -/
def get_object_size (od : ObjectDict) (index : BitVec 16) (subindex : BitVec 8) : BitVec 8 :=
  match od.entries.find? (fun e => e.index == index && e.subindex == subindex) with
  | some e => e.data_size
  | none =>
    if index = 0x6040 then 2
    else if index = 0x6060 then 1
    else if index = 0x6081 ∨ index = 0x6083 ∨ index = 0x6084 then 4
    else 4

/-! ## §2. The line loop. -/

/-- The locals of `parse_eds_file` together with the global dictionary it fills. -/
structure EdsParser where
  current_index : BitVec 16
  current_subindex : BitVec 8
  current_data_type : BitVec 16
  in_object : Bool
  object_dict : ObjectDict

/-- The parser before the first line, filling `od`. -/
def EdsParser.start (od : ObjectDict) : EdsParser := ⟨0, 0, 0, false, od⟩

/-- A section header: `line[0] == '['` and `strchr(line, ']')`; the object id is the text
    between the bracket and the first `]`. -/
def headerId : List Char → Option (List Char)
  | '[' :: rest => if rest.contains ']' then some (rest.takeWhile (· != ']')) else none
  | _ => none

/-- The header assignments: `sscanf(object_id, "%hxsub%hhu", ...)` when the id contains
    `sub`, else `sscanf(object_id, "%hx", ...)` and `current_subindex = 0`.  A failed
    conversion assigns nothing, so the previous value stays. -/
def headerKey (index : BitVec 16) (subindex : BitVec 8) (object_id : List Char) :
    BitVec 16 × BitVec 8 :=
  if strstr object_id "sub".toList then
    match scan_hx object_id with
    | none => (index, subindex)
    | some (i, rest) =>
      match (scanLit "sub".toList rest).bind scan_hhu with
      | none => (i, subindex)
      | some (s, _) => (i, s)
  else ((scan_hx object_id).elim index Prod.fst, 0)

/-- `sscanf(line, "DataType=0x%hx", &current_data_type)`: the new value, or the old one when
    the conversion fails. -/
def scanDataType (old : BitVec 16) (line : List Char) : BitVec 16 :=
  ((scanLit "DataType=0x".toList line).bind scan_hx).elim old Prod.fst

/-- One iteration of the `while (fgets(line, ...))` loop of `parse_eds_file`. -/
def parse_eds_line (p : EdsParser) (buf : List Char) : EdsParser :=
  let line := cut ['\r', '\n'] buf
  match headerId line with
  | some object_id =>
    let key := headerKey p.current_index p.current_subindex object_id
    { p with current_index := key.1, current_subindex := key.2, current_data_type := 0,
             in_object := true }
  | none =>
    if p.in_object ∧ strstr line "DataType=".toList then
      -- Special handling for control word, ensure correct data type
      { p with current_data_type :=
          if p.current_index = 0x6040 then 6 else scanDataType p.current_data_type line }
    else if p.in_object ∧ strstr line "AccessType=".toList then
      { p with in_object := false,
               object_dict :=
                 if h : p.current_data_type ≠ 0 ∧ p.object_dict.entries.length < 100 then
                   p.object_dict.push ⟨p.current_index, p.current_subindex,
                     get_data_type_size p.current_data_type⟩ h.2
                 else p.object_dict }
    else p

/-- The line loop over a list of buffers. -/
def parse_eds_lines (p : EdsParser) (bufs : List (List Char)) : EdsParser :=
  bufs.foldl parse_eds_line p

/-- `parse_eds_file`: `-1` with the dictionary untouched when the file cannot be opened,
    else `0` with the dictionary the line loop leaves. -/
def parse_eds_file (od : ObjectDict) (file : Option (List Char)) : Int × ObjectDict :=
  match file with
  | none => (-1, od)
  | some text => (0, (parse_eds_lines (EdsParser.start od) (fgets_lines 256 [] text)).object_dict)

@[simp] theorem parse_eds_lines_nil (p : EdsParser) : parse_eds_lines p [] = p := rfl

@[simp] theorem parse_eds_lines_cons (p : EdsParser) (b : List Char) (bs : List (List Char)) :
    parse_eds_lines p (b :: bs) = parse_eds_lines (parse_eds_line p b) bs := rfl

/-- What one line does: open a section, record a data type, close a section (appending an
    entry when the data type is non-zero and there is room), or nothing. -/
theorem parse_eds_line_cases (p : EdsParser) (buf : List Char) :
    (∃ i s, parse_eds_line p buf =
      { p with current_index := i, current_subindex := s, current_data_type := 0,
               in_object := true }) ∨
    (∃ t, parse_eds_line p buf =
      { p with current_data_type := if p.current_index = 0x6040 then 6 else t }) ∨
    parse_eds_line p buf = { p with in_object := false } ∨
    (∃ h, p.current_data_type ≠ 0 ∧ parse_eds_line p buf =
      { p with in_object := false,
               object_dict := p.object_dict.push
                 ⟨p.current_index, p.current_subindex, get_data_type_size p.current_data_type⟩
                 h }) ∨
    parse_eds_line p buf = p := by
  unfold parse_eds_line
  dsimp only
  split
  · exact .inl ⟨_, _, rfl⟩
  · split
    · exact .inr (.inl ⟨_, rfl⟩)
    · split
      · split
        · rename_i h
          exact .inr (.inr (.inr (.inl ⟨h.2, h.1, rfl⟩)))
        · exact .inr (.inr (.inl rfl))
      · exact .inr (.inr (.inr (.inr rfl)))

/-! ## §3. The control word is always two bytes. -/

/-- The loop invariant behind the `0x6040` special case: while the current section is the
    control word its data type is 0 or UNSIGNED16, and every stored control-word entry has
    size 2. -/
def ControlWordInv (p : EdsParser) : Prop :=
  (p.current_index = 0x6040 → p.current_data_type = 0 ∨ p.current_data_type = 6) ∧
  ∀ e ∈ p.object_dict.entries, e.index = 0x6040 → e.data_size = 2

theorem controlWordInv_start : ControlWordInv (EdsParser.start ObjectDict.empty) :=
  ⟨by decide, by simp [EdsParser.start, ObjectDict.empty]⟩

theorem controlWordInv_step {p : EdsParser} (hp : ControlWordInv p) (buf : List Char) :
    ControlWordInv (parse_eds_line p buf) := by
  obtain ⟨hcur, hdict⟩ := hp
  rcases parse_eds_line_cases p buf with ⟨i, s, h⟩ | ⟨t, h⟩ | h | ⟨hl, hne, h⟩ | h <;>
    rw [h]
  · exact ⟨fun _ => .inl rfl, hdict⟩
  · refine ⟨fun hi => .inr (if_pos hi), hdict⟩
  · exact ⟨hcur, hdict⟩
  · refine ⟨hcur, fun e he hi => ?_⟩
    rcases List.mem_append.mp he with he | he
    · exact hdict e he hi
    · obtain rfl := List.mem_singleton.mp he
      rcases hcur hi with h0 | h6
      · exact absurd h0 hne
      · simp only [h6]; decide
  · exact ⟨hcur, hdict⟩

theorem controlWordInv_lines {p : EdsParser} (hp : ControlWordInv p) (bufs : List (List Char)) :
    ControlWordInv (parse_eds_lines p bufs) := by
  induction bufs generalizing p with
  | nil => exact hp
  | cons b bs ih => exact ih (controlWordInv_step hp b)

/-- Every control-word entry `parse_eds_file` stores has size 2, for every text. -/
theorem parse_eds_file_control_word (file : Option (List Char)) :
    ∀ e ∈ (parse_eds_file ObjectDict.empty file).2.entries,
      e.index = 0x6040 → e.data_size = 2 := by
  cases file with
  | none => simp [parse_eds_file, ObjectDict.empty]
  | some text => exact (controlWordInv_lines controlWordInv_start _).2

/-- The lookup answers 2 for the control word as soon as every stored control-word entry
    has size 2: the first match has size 2, and the fallback is 2. -/
theorem get_object_size_of_entries {od : ObjectDict}
    (h : ∀ e ∈ od.entries, e.index = 0x6040 → e.data_size = 2) (s : BitVec 8) :
    get_object_size od 0x6040 s = 2 := by
  unfold get_object_size
  split
  · rename_i e he
    have hp := List.find?_some he
    simp only [Bool.and_eq_true, beq_iff_eq] at hp
    exact h e (List.mem_of_find?_eq_some he) hp.1
  · rfl

end ErobCanopen

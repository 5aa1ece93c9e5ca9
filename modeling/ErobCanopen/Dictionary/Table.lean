/-
  ErobCanopen.Dictionary.Table
  ────────────────────────────
  **THE OBJECT DICTIONARY AS C LAYS IT OUT: `object_dict[100]` AND `object_dict_count`.**

  `Dictionary.Eds` keeps the dictionary as the list of the entries in use, with its bound as
  a field.  This module models the two globals themselves — an array of 100 slots and the
  counter — with every slot access checked: a store or a load at an index outside the array
  makes the step fail (`none`), as such an access has no defined result in C.
  `parse_eds_line_table` is the body of `parse_eds_file`'s `while (fgets(...))` loop over
  them, `get_object_size_table` the lookup's `for` loop.

  `ObjectTable.Represents` says the array holds a list dictionary: `object_dict_count` is its
  length and the slots below it are its entries.  Every step of the array model is a step of
  the list model under it, so what is proved of the list model holds of the array, and the
  bound of the list model is the reason no access leaves the array.

  Main results:
    * `parse_eds_line_table_refines`, `parse_eds_lines_table_refines` — a line, and any
      sequence of lines, stores inside the array and keeps representing the list model;
    * `get_object_size_table_refines` — the lookup loads only slots below
      `object_dict_count` and answers what `get_object_size` answers;
    * `parse_eds_file_in_bounds` — for every text: no store outside the array, and line after
      line `object_dict_count` starts at 0, never decreases and never exceeds 100.
-/
import Mathlib.Data.List.Basic
import ErobCanopen.Dictionary.Eds

namespace ErobCanopen

/-! ## §1. The two globals. -/

/-- `object_dict[100]` and `object_dict_count`. -/
structure ObjectTable where
  object_dict : Fin 100 → ObjectDictEntry
  object_dict_count : Nat

namespace ObjectTable

/-- The globals before any EDS text is read: zero-initialised. -/
def empty : ObjectTable := ⟨fun _ => ⟨0, 0, 0⟩, 0⟩

/-- `object_dict[i] = e` (the three field stores of one slot); `none` outside the array. -/
def store (tb : ObjectTable) (i : Nat) (e : ObjectDictEntry) : Option ObjectTable :=
  if h : i < 100 then
    some { tb with object_dict := fun j => if j = ⟨i, h⟩ then e else tb.object_dict j }
  else none

/-- `object_dict[i]`; `none` outside the array. -/
def load (tb : ObjectTable) (i : Nat) : Option ObjectDictEntry :=
  if h : i < 100 then some (tb.object_dict ⟨i, h⟩) else none

/-- The entries in use: the slots below `object_dict_count`, in order. -/
def entries (tb : ObjectTable) : List ObjectDictEntry :=
  (List.range tb.object_dict_count).filterMap tb.load

/-- The append of the `AccessType=` branch: the stores into
    `object_dict[object_dict_count]`, then `object_dict_count++`. -/
def append (tb : ObjectTable) (e : ObjectDictEntry) : Option ObjectTable :=
  (tb.store tb.object_dict_count e).map fun tb =>
    { tb with object_dict_count := tb.object_dict_count + 1 }

/-- The array holds the list dictionary `od`: `object_dict_count` is its length and the slots
    below it are its entries. -/
def Represents (tb : ObjectTable) (od : ObjectDict) : Prop :=
  tb.object_dict_count = od.entries.length ∧ tb.entries = od.entries

theorem empty_represents : empty.Represents ObjectDict.empty := ⟨rfl, rfl⟩

theorem Represents.count_le {tb : ObjectTable} {od : ObjectDict} (h : tb.Represents od) :
    tb.object_dict_count ≤ 100 :=
  h.1 ▸ od.bounded

/-- A store at `i` leaves the loads of the other slots alone. -/
theorem load_store_of_ne {tb tb' : ObjectTable} {i j : Nat} {e : ObjectDictEntry}
    (h : tb.store i e = some tb') (hj : j ≠ i) : tb'.load j = tb.load j := by
  unfold store at h
  split at h
  · obtain rfl := Option.some_inj.mp h
    unfold load
    split
    · dsimp only
      split
      · rename_i hji
        exact absurd (congrArg Fin.val hji) hj
      · rfl
    · rfl
  · cases h

/-- Appending below the bound stores inside the array and appends to the entries. -/
theorem Represents.append {tb : ObjectTable} {od : ObjectDict} (h : tb.Represents od)
    (e : ObjectDictEntry) (hl : od.entries.length < 100) :
    ∃ tb', tb.append e = some tb' ∧ tb'.Represents (od.push e hl) := by
  have hc : tb.object_dict_count < 100 := h.1 ▸ hl
  let tb₁ : ObjectTable :=
    { tb with object_dict := fun j => if j = ⟨tb.object_dict_count, hc⟩ then e else tb.object_dict j }
  have hs : tb.store tb.object_dict_count e = some tb₁ := dif_pos hc
  refine ⟨{ tb₁ with object_dict_count := tb.object_dict_count + 1 }, by rw [ObjectTable.append, hs]; rfl,
    by rw [ObjectDict.push_entries, List.length_append, ← h.1]; rfl, ?_⟩
  have hnew : tb₁.load tb.object_dict_count = some e := by
    rw [load, dif_pos hc]
    exact congrArg some (if_pos rfl)
  have hold : (List.range tb.object_dict_count).filterMap tb₁.load = od.entries :=
    (List.filterMap_congr fun j hj =>
      load_store_of_ne hs (Nat.ne_of_lt (List.mem_range.mp hj))).trans h.2
  show (List.range (tb.object_dict_count + 1)).filterMap tb₁.load = _
  rw [List.range_succ, List.filterMap_append, hold, ObjectDict.push_entries, List.filterMap_cons,
    hnew, List.filterMap_nil]

end ObjectTable

/-! ## §2. The line loop over the globals. -/

/-- The locals of `parse_eds_file` together with the two globals. -/
structure TableParser where
  current_index : BitVec 16
  current_subindex : BitVec 8
  current_data_type : BitVec 16
  in_object : Bool
  table : ObjectTable

/-- The parser before the first line, filling `tb`. -/
def TableParser.start (tb : ObjectTable) : TableParser := ⟨0, 0, 0, false, tb⟩

/-- One iteration of the `while (fgets(line, ...))` loop of `parse_eds_file` over the
    globals; `none` when it stores outside `object_dict`. -/
def parse_eds_line_table (p : TableParser) (buf : List Char) : Option TableParser :=
  let line := cut ['\r', '\n'] buf
  match headerId line with
  | some object_id =>
    let key := headerKey p.current_index p.current_subindex object_id
    some { p with current_index := key.1, current_subindex := key.2, current_data_type := 0,
                  in_object := true }
  | none =>
    if p.in_object ∧ strstr line "DataType=".toList then
      -- Special handling for control word, ensure correct data type
      some { p with current_data_type :=
        if p.current_index = 0x6040 then 6 else scanDataType p.current_data_type line }
    else if p.in_object ∧ strstr line "AccessType=".toList then
      if p.current_data_type ≠ 0 ∧ p.table.object_dict_count < 100 then
        (p.table.append ⟨p.current_index, p.current_subindex,
            get_data_type_size p.current_data_type⟩).map
          fun tb => { p with in_object := false, table := tb }
      else some { p with in_object := false }
    else some p

/-- The line loop over a list of buffers, stopping at the first failed step. -/
def parse_eds_lines_table (p : TableParser) : List (List Char) → Option TableParser
  | [] => some p
  | b :: bs => (parse_eds_line_table p b).bind fun p => parse_eds_lines_table p bs

/-- `parse_eds_file` over the globals: `-1` with the globals untouched when the file cannot be
    opened, else `0` with the globals the line loop leaves. -/
def parse_eds_file_table (tb : ObjectTable) (file : Option (List Char)) :
    Option (Int × ObjectTable) :=
  match file with
  | none => some (-1, tb)
  | some text =>
    (parse_eds_lines_table (TableParser.start tb) (fgets_lines 256 [] text)).map fun p =>
      (0, p.table)

/-- The array-level parser holds the list-level one: the same locals, and the array holds
    the dictionary. -/
def TableParser.Represents (p : TableParser) (q : EdsParser) : Prop :=
  p.current_index = q.current_index ∧ p.current_subindex = q.current_subindex ∧
    p.current_data_type = q.current_data_type ∧ p.in_object = q.in_object ∧
    p.table.Represents q.object_dict

/-- One line over the globals stores inside the array, and is the list model's line. -/
theorem parse_eds_line_table_refines {p : TableParser} {q : EdsParser} (h : p.Represents q)
    (buf : List Char) :
    ∃ p', parse_eds_line_table p buf = some p' ∧ p'.Represents (parse_eds_line q buf) := by
  obtain ⟨i, s, t, o, tb⟩ := p
  obtain ⟨_, _, _, _, od⟩ := q
  obtain ⟨rfl, rfl, rfl, rfl, htb⟩ := h
  unfold parse_eds_line_table parse_eds_line
  dsimp only
  cases headerId (cut ['\r', '\n'] buf) with
  | some object_id => exact ⟨_, rfl, rfl, rfl, rfl, rfl, htb⟩
  | none =>
    dsimp only
    by_cases hd : o = true ∧ strstr (cut ['\r', '\n'] buf) "DataType=".toList = true
    · simp only [if_pos hd]
      exact ⟨_, rfl, rfl, rfl, rfl, rfl, htb⟩
    simp only [if_neg hd]
    by_cases ha : o = true ∧ strstr (cut ['\r', '\n'] buf) "AccessType=".toList = true
    · simp only [if_pos ha]
      by_cases hg : t ≠ 0 ∧ od.entries.length < 100
      · obtain ⟨tb', happ, htb'⟩ := htb.append ⟨i, s, get_data_type_size t⟩ hg.2
        rw [dif_pos hg, if_pos ⟨hg.1, htb.1 ▸ hg.2⟩, happ]
        exact ⟨⟨i, s, t, false, tb'⟩, rfl, rfl, rfl, rfl, rfl, htb'⟩
      · rw [dif_neg hg, if_neg fun hg' => hg ⟨hg'.1, htb.1 ▸ hg'.2⟩]
        exact ⟨⟨i, s, t, false, tb⟩, rfl, rfl, rfl, rfl, rfl, htb⟩
    · simp only [if_neg ha]
      exact ⟨_, rfl, rfl, rfl, rfl, rfl, htb⟩

/-- A line never removes an entry. -/
theorem parse_eds_line_length_le (q : EdsParser) (buf : List Char) :
    q.object_dict.entries.length ≤ (parse_eds_line q buf).object_dict.entries.length := by
  rcases parse_eds_line_cases q buf with ⟨_, _, h⟩ | ⟨_, h⟩ | h | ⟨_, _, h⟩ | h <;> simp [h]

/-- The run lemma: any sequence of lines stores inside the array, and is the list model's run. -/
theorem parse_eds_lines_table_refines :
    ∀ (bufs : List (List Char)) {p : TableParser} {q : EdsParser}, p.Represents q →
      ∃ p', parse_eds_lines_table p bufs = some p' ∧ p'.Represents (parse_eds_lines q bufs)
  | [], _, _, h => ⟨_, rfl, h⟩
  | b :: bs, _, _, h => by
    obtain ⟨p₁, h₁, hr₁⟩ := parse_eds_line_table_refines h b
    obtain ⟨p', h', hr'⟩ := parse_eds_lines_table_refines bs hr₁
    exact ⟨p', by rw [parse_eds_lines_table, h₁, Option.some_bind, h'], hr'⟩

theorem parse_eds_lines_table_append (p : TableParser) (bs bs' : List (List Char)) :
    parse_eds_lines_table p (bs ++ bs') =
      (parse_eds_lines_table p bs).bind fun p => parse_eds_lines_table p bs' := by
  induction bs generalizing p with
  | nil => rfl
  | cons b bs ih =>
    rw [List.cons_append, parse_eds_lines_table, parse_eds_lines_table, Option.bind_assoc]
    exact congrArg _ (funext ih)

/-! ## §3. The lookup over the globals. -/

/-- The `for` loop of `get_object_size` over the slots `is`: the size of the first entry with
    the key (`some (some size)`), no such entry (`some none`), or `none` when a load is
    outside the array. -/
def scanSlots (tb : ObjectTable) (index : BitVec 16) (subindex : BitVec 8) :
    List Nat → Option (Option (BitVec 8))
  | [] => some none
  | i :: is =>
    match tb.load i with
    | none => none
    | some e =>
      if e.index = index ∧ e.subindex = subindex then some (some e.data_size)
      else scanSlots tb index subindex is

/-- `get_object_size` over the globals: the slots `0 … object_dict_count - 1`, then the
    built-in defaults; `none` when a load is outside the array. -/
def get_object_size_table (tb : ObjectTable) (index : BitVec 16) (subindex : BitVec 8) :
    Option (BitVec 8) :=
  (scanSlots tb index subindex (List.range tb.object_dict_count)).map fun
    | some data_size => data_size
    | none =>
      if index = 0x6040 then 2
      else if index = 0x6060 then 1
      else if index = 0x6081 ∨ index = 0x6083 ∨ index = 0x6084 then 4
      else 4

/-- Over slots inside the array the loop loads them all and finds the first entry with the
    key. -/
theorem scanSlots_of_lt (tb : ObjectTable) (index : BitVec 16) (subindex : BitVec 8) :
    ∀ is : List Nat, (∀ i ∈ is, i < 100) →
      scanSlots tb index subindex is =
        some (((is.filterMap tb.load).find?
          fun e => e.index == index && e.subindex == subindex).map (·.data_size))
  | [], _ => rfl
  | i :: is, h => by
    have hi : tb.load i = some (tb.object_dict ⟨i, h i (List.mem_cons_self i is)⟩) :=
      dif_pos _
    rw [scanSlots, hi, List.filterMap_cons, hi]
    dsimp only
    by_cases he : (tb.object_dict ⟨i, h i (List.mem_cons_self i is)⟩).index = index ∧
        (tb.object_dict ⟨i, h i (List.mem_cons_self i is)⟩).subindex = subindex
    · rw [if_pos he, List.find?_cons_of_pos _ (by simp [he])]
      rfl
    · rw [if_neg he, List.find?_cons_of_neg _ (by simpa using he),
        scanSlots_of_lt tb index subindex is fun j hj => h j (List.mem_cons_of_mem i hj)]

/-- The lookup over an array that holds a list dictionary loads only slots below
    `object_dict_count`, and answers what `get_object_size` answers. -/
theorem get_object_size_table_refines {tb : ObjectTable} {od : ObjectDict} (h : tb.Represents od)
    (index : BitVec 16) (subindex : BitVec 8) :
    get_object_size_table tb index subindex = some (get_object_size od index subindex) := by
  have hin : ∀ i ∈ List.range tb.object_dict_count, i < 100 := fun i hi =>
    Nat.lt_of_lt_of_le (List.mem_range.mp hi) h.count_le
  rw [get_object_size_table, scanSlots_of_lt tb index subindex _ hin]
  change some _ = some _
  rw [show (List.range tb.object_dict_count).filterMap tb.load = od.entries from h.2]
  unfold get_object_size
  cases od.entries.find? (fun e => e.index == index && e.subindex == subindex) <;> rfl

/-! ## §4. No access outside the array. -/

/-- For every EDS text, `parse_eds_file` over the two globals makes no store outside
    `object_dict`: `object_dict_count` starts at 0, and each line leaves it no smaller and at
    most 100.  The globals it leaves hold the dictionary of the list model, and
    `get_object_size` over them loads only slots below `object_dict_count`, answering what
    the list model answers. -/
theorem parse_eds_file_in_bounds (text : List Char) :
    ObjectTable.empty.object_dict_count = 0 ∧
    (∀ n, ∃ p p',
      parse_eds_lines_table (TableParser.start ObjectTable.empty)
          ((fgets_lines 256 [] text).take n) = some p ∧
        parse_eds_lines_table (TableParser.start ObjectTable.empty)
          ((fgets_lines 256 [] text).take (n + 1)) = some p' ∧
        p.table.object_dict_count ≤ p'.table.object_dict_count ∧
        p'.table.object_dict_count ≤ 100) ∧
    ∃ tb, parse_eds_file_table ObjectTable.empty (some text) = some (0, tb) ∧
      tb.Represents (parse_eds_file ObjectDict.empty (some text)).2 ∧
      ∀ index subindex, get_object_size_table tb index subindex =
        some (get_object_size (parse_eds_file ObjectDict.empty (some text)).2 index subindex) := by
  have hstart : (TableParser.start ObjectTable.empty).Represents (EdsParser.start ObjectDict.empty) :=
    ⟨rfl, rfl, rfl, rfl, ObjectTable.empty_represents⟩
  refine ⟨rfl, fun n => ?_, ?_⟩
  · obtain ⟨p, hp, hr⟩ := parse_eds_lines_table_refines ((fgets_lines 256 [] text).take n) hstart
    rw [List.take_succ, parse_eds_lines_table_append, hp, Option.some_bind]
    cases hb : (fgets_lines 256 [] text)[n]? with
    | none => exact ⟨p, p, rfl, rfl, le_rfl, hr.2.2.2.2.count_le⟩
    | some b =>
      obtain ⟨p', hp', hr'⟩ := parse_eds_line_table_refines hr b
      refine ⟨p, p', rfl, by simp [parse_eds_lines_table, hp'], ?_, hr'.2.2.2.2.count_le⟩
      rw [hr.2.2.2.2.1, hr'.2.2.2.2.1]
      exact parse_eds_line_length_le _ b
  · obtain ⟨p, hp, hr⟩ := parse_eds_lines_table_refines (fgets_lines 256 [] text) hstart
    exact ⟨p.table, by rw [parse_eds_file_table, hp]; rfl, hr.2.2.2.2,
      get_object_size_table_refines hr.2.2.2.2⟩

end ErobCanopen

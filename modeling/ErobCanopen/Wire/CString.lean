/-
  ErobCanopen.Wire.CString
  ────────────────────────
  **THE LIBC TEXT PRIMITIVES BOTH PARSERS STAND ON.**

  `parse_eds_file` and `main`'s command loop read text with `fgets`, cut it with `strcspn`,
  search it with `strchr`/`strstr` and convert numbers with `sscanf`.  This module gives each
  of them as a function on character lists, following glibc:

    * `fgets_lines` — the successive buffers `fgets(buf, size, f)` fills;
    * `cut` — `buf[strcspn(buf, reject)] = 0`, the C string that is left;
    * `strstr` — substring search;
    * `scanNumber` — the number-reading path of `vfscanf` (leading white space, a sign,
      for `%x` an optional `0x`, then digits); `none` is a matching failure, which
      assigns nothing;
    * `scan_hx`, `scan_hhu`, `scan_d` — `%hx`, `%hhu`, `%d`: `strtoul`/`strtol` on the scanned
      text, then the store into the narrower C object;
    * `atoi` and `scanf_d` — how `main` reads a node id from `argv` and from the standard
      input, the second with what the stream keeps after a matching failure.
-/
import Mathlib.Data.Fin.VecNotation
import Mathlib.Algebra.Group.Nat.Basic
import Mathlib.Algebra.Group.Int

namespace ErobCanopen

/-! ## §1. Lines. -/

/-- The buffers `fgets(buf, size, f)` fills from a text: each holds at most `size - 1`
    characters and ends after the first newline it reads. -/
def fgets_lines (size : Nat) (cur : List Char) : List Char → List (List Char)
  | [] => if cur = [] then [] else [cur.reverse]
  | c :: rest =>
      if c = '\n' ∨ cur.length + 2 = size then (c :: cur).reverse :: fgets_lines size [] rest
      else fgets_lines size (c :: cur) rest

/-- Each buffer takes at least one character of the text. -/
theorem fgets_lines_length_le (size : Nat) :
    ∀ (s cur : List Char), (fgets_lines size cur s).length ≤ s.length + cur.length
  | [], cur => by
    unfold fgets_lines
    split
    · exact Nat.zero_le _
    · simpa using List.length_pos.mpr ‹_›
  | c :: rest, cur => by
    unfold fgets_lines
    split
    · have := fgets_lines_length_le size rest []
      simp only [List.length_cons, List.length_nil] at *
      omega
    · have := fgets_lines_length_le size rest (c :: cur)
      simp only [List.length_cons] at *
      omega

/-- `buf[strcspn(buf, reject)] = 0`: the C string before the first character of `reject`
    (or before the terminating NUL). -/
def cut (reject : List Char) (buf : List Char) : List Char :=
  buf.takeWhile (fun c => !(reject.contains c) && c != '\x00')

/-- `strstr(hay, needle) != NULL`. -/
def strstr (hay needle : List Char) : Bool :=
  match hay with
  | [] => needle.isEmpty
  | c :: cs => needle.isPrefixOf (c :: cs) || strstr cs needle

/-! ## §2. `sscanf` conversions. -/

/-- `isspace` in the "C" locale. -/
def isSpace (c : Char) : Bool :=
  c = ' ' || c = '\t' || c = '\n' || c = '\x0b' || c = '\x0c' || c = '\r'

/-- The value of `c` as a digit of `base` (`isdigit`, or `isxdigit` for base 16). -/
def digitVal (base : Nat) (c : Char) : Option Nat :=
  if '0' ≤ c ∧ c ≤ '9' ∧ c.toNat - '0'.toNat < base then some (c.toNat - '0'.toNat)
  else if base = 16 ∧ 'a' ≤ c ∧ c ≤ 'f' then some (c.toNat - 'a'.toNat + 10)
  else if base = 16 ∧ 'A' ≤ c ∧ c ≤ 'F' then some (c.toNat - 'A'.toNat + 10)
  else none

/-- The longest run of digits at the front of `s`, and what follows it. -/
def spanDigits (base : Nat) : List Char → List Nat × List Char
  | [] => ([], [])
  | c :: cs =>
      match digitVal base c with
      | some d => match spanDigits base cs with
        | (ds, rest) => (d :: ds, rest)
      | none => ([], c :: cs)

/-- The value of a digit string, most significant digit first. -/
def digitsValue (base : Nat) (ds : List Nat) : Nat := ds.foldl (fun acc d => acc * base + d) 0

/-- The optional sign of a number: whether it is `-`, and the text after it. -/
def scanSign : List Char → Bool × List Char
  | '-' :: r => (true, r)
  | '+' :: r => (false, r)
  | r => (false, r)

/-- The magnitude after the sign: for base 16 a `0x`/`0X` after a leading `0` is skipped (the
    `0` counting as a digit read), then the digits; `none` when no digit was read. -/
def scanMagnitude (base : Nat) : List Char → Option (Nat × List Char)
  | '0' :: c :: r =>
      match spanDigits base (if base = 16 ∧ (c = 'x' ∨ c = 'X') then r else '0' :: c :: r) with
      | (ds, rest) => some (digitsValue base ds, rest)
  | r =>
      match spanDigits base r with
      | ([], _) => none
      | (ds, rest) => some (digitsValue base ds, rest)

/-- The number-reading path of glibc's `vfscanf`: skip white space, take a sign, then the
    magnitude.  Returns whether the sign was `-`, the magnitude, and the unread rest; `none`
    when no digit was read. -/
def scanNumber (base : Nat) (s : List Char) : Option (Bool × Nat × List Char) :=
  let signed := scanSign (s.dropWhile isSpace)
  (scanMagnitude base signed.2).map fun r => (signed.1, r)

/-- `strtoul` on a scanned number: an `unsigned long` (64 bits), `ULONG_MAX` on overflow,
    a leading `-` negating modulo `2^64`. -/
def strtoul (neg : Bool) (m : Nat) : Nat :=
  if 2 ^ 64 ≤ m then 2 ^ 64 - 1 else if neg then (2 ^ 64 - m) % 2 ^ 64 else m

/-- `strtol` on a scanned number: a `long` (64 bits), clamped to `LONG_MIN`/`LONG_MAX`. -/
def strtol (neg : Bool) (m : Nat) : Int :=
  if neg then max (-(m : Int)) (-2 ^ 63) else min (m : Int) (2 ^ 63 - 1)

/-- `%hx`: the `unsigned short` stored, and the unread rest. -/
def scan_hx (s : List Char) : Option (BitVec 16 × List Char) :=
  (scanNumber 16 s).map fun r => (BitVec.ofNat 16 (strtoul r.1 r.2.1), r.2.2)

/-- `%hhu`: the `unsigned char` stored, and the unread rest. -/
def scan_hhu (s : List Char) : Option (BitVec 8 × List Char) :=
  (scanNumber 10 s).map fun r => (BitVec.ofNat 8 (strtoul r.1 r.2.1), r.2.2)

/-- `%d`: the `int` stored (the `long` truncated to 32 bits, as gcc converts it). -/
def scan_d (s : List Char) : Option (BitVec 32 × List Char) :=
  (scanNumber 10 s).map fun r => (BitVec.ofInt 32 (strtol r.1 r.2.1), r.2.2)

/-- A literal of the format: it must match the input character for character. -/
def scanLit (lit s : List Char) : Option (List Char) :=
  if lit.isPrefixOf s then some (s.drop lit.length) else none

/-- glibc's `%x` takes the hexadecimal digits at the front of an object id: `1018sub1` gives
    `0x1018`, and so does a `0x` prefix, while `DeviceInfo` gives `0xDE`. -/
example : scan_hx "1018sub1".toList = some (0x1018, "sub1".toList) ∧
    scan_hx "0x1018".toList = some (0x1018, []) ∧
    scan_hx "DeviceInfo".toList = some (0xDE, "viceInfo".toList) := by
  decide

/-- `%d` keeps the low 32 bits of what `strtol` read: `4294967396` is stored as 100. -/
example : scan_d "4294967396".toList = some (100, []) := by
  decide

/-- What a scan leaves unread is a suffix of its input. -/
theorem spanDigits_suffix (base : Nat) : ∀ s : List Char, (spanDigits base s).2 <:+ s
  | [] => List.suffix_refl _
  | c :: cs => by
    unfold spanDigits
    cases digitVal base c with
    | some d => exact (spanDigits_suffix base cs).trans (List.suffix_cons c cs)
    | none => exact List.suffix_refl _

theorem scanSign_suffix (s : List Char) : (scanSign s).2 <:+ s := by
  unfold scanSign; split <;> simp

theorem scanMagnitude_suffix {base : Nat} {s rest : List Char} {m : Nat}
    (h : scanMagnitude base s = some (m, rest)) : rest <:+ s := by
  unfold scanMagnitude at h
  split at h
  · rename_i c r
    simp only [Option.some.injEq, Prod.mk.injEq] at h
    rw [← h.2]
    split
    · exact (spanDigits_suffix base r).trans ((List.suffix_cons _ _).trans (List.suffix_cons _ _))
    · exact spanDigits_suffix base _
  · split at h
    · cases h
    · rename_i heq
      cases h
      simpa [heq] using spanDigits_suffix base s

theorem scanNumber_suffix {base : Nat} {s rest : List Char} {neg : Bool} {m : Nat}
    (h : scanNumber base s = some (neg, m, rest)) : rest <:+ s := by
  obtain ⟨⟨m', rest'⟩, hm, he⟩ := Option.map_eq_some'.mp h
  cases he
  exact (scanMagnitude_suffix hm).trans ((scanSign_suffix _).trans (List.dropWhile_suffix _))

/-! ## §3. Numbers from the command line and the standard input. -/

/-- `atoi(s)`: glibc's `(int) strtol(s, NULL, 10)`, the number path of `%d`; 0 when no digit
    is read. -/
def atoi (s : List Char) : BitVec 32 := ((scan_d s).map Prod.fst).getD 0

/-- `scanf("%d", &v)` on a stream: the `int` stored when a number is read, and what is left of
    the stream.  On a matching failure glibc has consumed the white space and the sign it read,
    and pushes back only the character that failed. -/
def scanf_d (s : List Char) : Option (BitVec 32) × List Char :=
  match scan_d s with
  | some (v, rest) => (some v, rest)
  | none => (none, (scanSign (s.dropWhile isSpace)).2)

theorem scanf_d_suffix (s : List Char) : (scanf_d s).2 <:+ s := by
  unfold scanf_d scan_d
  split
  · rename_i v rest h
    obtain ⟨⟨neg, m, rest'⟩, hm, he⟩ := Option.map_eq_some'.mp h
    cases he
    exact scanNumber_suffix hm
  · exact (scanSign_suffix _).trans (List.dropWhile_suffix _)

/-- A run of digits is taken as long as it goes on. -/
theorem spanDigits_snd (base : Nat) : ∀ s : List Char,
    (spanDigits base s).2 = s.dropWhile fun c => (digitVal base c).isSome
  | [] => rfl
  | c :: cs => by
    unfold spanDigits
    cases h : digitVal base c with
    | none => simp [h]
    | some d =>
      rcases hs : spanDigits base cs with ⟨ds, rest⟩
      simp [h, ← spanDigits_snd base cs, hs]

/-- Where no digit is taken, nothing is. -/
theorem spanDigits_of_fst_nil {base : Nat} : ∀ {t : List Char},
    (spanDigits base t).1 = [] → (spanDigits base t).2 = t
  | [], _ => rfl
  | c :: cs, h => by
    unfold spanDigits at h ⊢
    cases hc : digitVal base c with
    | none => rfl
    | some d =>
      rcases hs : spanDigits base cs with ⟨ds, rest⟩
      simp [hc, hs] at h

/-- The decimal magnitude leaves what follows its digits, and a failed one leaves its input. -/
theorem scanMagnitude_ten_rest (t : List Char) :
    (scanMagnitude 10 t).elim t Prod.snd = (spanDigits 10 t).2 := by
  unfold scanMagnitude
  split
  · simp
  · split
    · rename_i heq
      rw [spanDigits_of_fst_nil (by rw [heq])]
      rfl
    · rename_i heq
      simp [heq]

/-- What `scanf("%d")` leaves of the stream: everything after its leading white space, a sign
    and the decimal digits that follow, each taken as long as it goes on — whether or not a
    number was read. -/
theorem scanf_d_rest (s : List Char) :
    (scanf_d s).2 = (scanSign (s.dropWhile isSpace)).2.dropWhile fun c => (digitVal 10 c).isSome := by
  rw [← spanDigits_snd, ← scanMagnitude_ten_rest]
  unfold scanf_d scan_d scanNumber
  dsimp only
  cases scanMagnitude 10 (scanSign (s.dropWhile isSpace)).2 <;> rfl

/-- `atoi` keeps the low 32 bits too: `4294967298` is 2.  A sign that `scanf` read before a
    failure is gone from the stream. -/
example : atoi "4294967298".toList = 2 ∧
    scanf_d "-p 1000\n".toList = (none, "p 1000\n".toList) := by
  decide

end ErobCanopen

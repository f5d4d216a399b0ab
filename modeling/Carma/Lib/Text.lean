-- Numbers as text, the way that Java writes and reads them: `%d`, `%.2f`, `parseInt` and
-- `parseDouble`, and `split` at one character. Numbers are exact, and the decimal point is
-- a point.
import Carma.Lib.ExactDouble
import Mathlib.Algebra.Order.Floor.Ring
import Mathlib.Algebra.Order.Ring.Abs
import Mathlib.Data.List.Basic
import Mathlib.Data.List.Infix
import Mathlib.Tactic.Linarith
import Mathlib.Tactic.NormNum
import Mathlib.Tactic.Ring

open lib.exact_double

namespace lib.text

/-- A string, as its characters. -/
abbrev Text := List Char

/-! ## Splitting -/

/-- `s.split(sep)`: what is between the separators, without the empty strings at the end.
A string without the separator is given back. -/
def split (sep : Char) (s : Text) : List Text :=
  if sep ∈ s then ((s.splitOn sep).reverse.dropWhile List.isEmpty).reverse else [s]

theorem mem_splitOn {sep : Char} {s piece : Text} (h : piece ∈ s.splitOn sep) :
    sep ∉ piece ∧ ∀ c ∈ piece, c ∈ s := by
  induction s generalizing piece with
  | nil =>
    obtain rfl := List.mem_singleton.mp h
    exact ⟨List.not_mem_nil, fun _ hc => hc⟩
  | cons c rest ih =>
    rw [List.splitOn_cons_eq_if_modifyHead] at h
    split at h
    · rcases List.mem_cons.mp h with rfl | h
      · exact ⟨List.not_mem_nil, fun _ hc => absurd hc List.not_mem_nil⟩
      · obtain ⟨hsep, hfrom⟩ := ih h
        exact ⟨hsep, fun d hd => List.mem_cons_of_mem _ (hfrom d hd)⟩
    · rename_i hne
      generalize hpieces : rest.splitOn sep = pieces at h ih
      cases pieces with
      | nil => exact absurd hpieces (List.splitOn_ne_nil _ _)
      | cons first others =>
        rcases List.mem_cons.mp h with rfl | h
        · obtain ⟨hsep, hfrom⟩ := ih List.mem_cons_self
          refine ⟨?_, ?_⟩
          · rintro (_ | ⟨_, hmem⟩)
            · exact hne (beq_self_eq_true _)
            · exact hsep hmem
          · rintro d (_ | ⟨_, hmem⟩)
            · exact List.mem_cons_self
            · exact List.mem_cons_of_mem _ (hfrom d hmem)
        · obtain ⟨hsep, hfrom⟩ := ih (List.mem_cons_of_mem _ h)
          exact ⟨hsep, fun d hd => List.mem_cons_of_mem _ (hfrom d hd)⟩

theorem mem_split {sep : Char} {s piece : Text} (h : piece ∈ split sep s) :
    sep ∉ piece ∧ ∀ c ∈ piece, c ∈ s := by
  unfold split at h
  split at h
  · exact mem_splitOn (List.mem_reverse.mp
      ((List.dropWhile_sublist _).mem (List.mem_reverse.mp h)))
  · rename_i hsep
    obtain rfl := List.mem_singleton.mp h
    exact ⟨hsep, fun _ hc => hc⟩

theorem split_intercalate {sep : Char} {pieces : List Text} {last : Text}
    (hsep : ∀ piece ∈ pieces ++ [last], sep ∉ piece) (hlast : last ≠ []) :
    split sep ([sep].intercalate (pieces ++ [last])) = pieces ++ [last] := by
  have hsplit : ([sep].intercalate (pieces ++ [last])).splitOn sep = pieces ++ [last] :=
    List.splitOn_intercalate sep hsep (by simp)
  have hdrop : ((pieces ++ [last]).reverse.dropWhile List.isEmpty).reverse = pieces ++ [last] := by
    rw [List.reverse_append, List.reverse_singleton, List.singleton_append,
      List.dropWhile_cons_of_neg (by simpa using hlast), List.reverse_cons, List.reverse_reverse]
  unfold split
  split
  · rw [hsplit, hdrop]
  · rename_i hnone
    rw [List.splitOn_eq_singleton hnone] at hsplit
    exact hsplit

/-- `s.split(outer)[i].split(inner)[1]`, none where an index is out of range. -/
def field (outer inner : Char) (i : ℕ) (s : Text) : Option Text :=
  (split outer s)[i]?.bind fun piece => (split inner piece)[1]?

theorem field_some {outer inner : Char} {i : ℕ} {s value : Text}
    (h : field outer inner i s = some value) :
    outer ∉ value ∧ inner ∉ value := by
  obtain ⟨piece, hpiece, hvalue⟩ := Option.bind_eq_some_iff.mp h
  obtain ⟨hinner, hfrom⟩ := mem_split (List.mem_of_getElem? hvalue)
  obtain ⟨houter, -⟩ := mem_split (List.mem_of_getElem? hpiece)
  exact ⟨fun hmem => houter (hfrom _ hmem), hinner⟩

/-- `key:value`. -/
def entry (inner : Char) (key value : Text) : Text := key ++ inner :: value

theorem split_entry {inner : Char} {key value : Text} (hkey : inner ∉ key) (hvalue : inner ∉ value)
    (hne : value ≠ []) : split inner (entry inner key value) = [key, value] := by
  have hjoin : entry inner key value = [inner].intercalate ([key] ++ [value]) := by
    simp [entry, List.intercalate]
  rw [hjoin]
  apply split_intercalate _ hne
  simp [hkey, hvalue]

/-- Without a value nothing follows the key. -/
theorem split_entry_nil {inner : Char} {key : Text} (hkey : inner ∉ key) (hne : key ≠ []) :
    split inner (entry inner key []) = [key] := by
  unfold split entry
  rw [if_pos (List.mem_append_right _ List.mem_cons_self),
    List.splitOn_append_cons_self_of_not_mem hkey]
  show ([[], key].dropWhile List.isEmpty).reverse = [key]
  rw [List.dropWhile_cons_of_pos rfl, List.dropWhile_cons_of_neg (by simpa using hne)]
  rfl

/-- `key:value,key:value` and so on. -/
def joined (outer inner : Char) (entries : List (Text × Text)) : Text :=
  [outer].intercalate (entries.map fun e => entry inner e.1 e.2)

theorem split_joined {outer inner : Char} {entries : List (Text × Text)} (hne : entries ≠ [])
    (hdiff : outer ≠ inner) (hkeys : ∀ e ∈ entries, outer ∉ e.1)
    (hvalues : ∀ e ∈ entries, outer ∉ e.2) :
    split outer (joined outer inner entries) = entries.map fun e => entry inner e.1 e.2 := by
  have hmap : (entries.map fun e => entry inner e.1 e.2) =
      entries.dropLast.map (fun e => entry inner e.1 e.2) ++
        [entry inner (entries.getLast hne).1 (entries.getLast hne).2] := by
    conv_lhs => rw [← List.dropLast_append_getLast hne]
    exact List.map_append
  have hfree : ∀ piece ∈ entries.map fun e => entry inner e.1 e.2, outer ∉ piece := by
    intro piece hpiece
    obtain ⟨e, he, rfl⟩ := List.mem_map.mp hpiece
    simp [entry, hkeys e he, hvalues e he, hdiff]
  unfold joined
  rw [hmap] at hfree ⊢
  exact split_intercalate hfree (by simp [entry])

/-- Each value is found where it was put. -/
theorem field_joined {outer inner : Char} {entries : List (Text × Text)} {i : ℕ} {e : Text × Text}
    (hdiff : outer ≠ inner) (hkeys : ∀ e ∈ entries, outer ∉ e.1 ∧ inner ∉ e.1)
    (hvalues : ∀ e ∈ entries, outer ∉ e.2) (hi : entries[i]? = some e) (hinner : inner ∉ e.2)
    (hne : e.2 ≠ []) : field outer inner i (joined outer inner entries) = some e.2 := by
  have hmem := List.mem_of_getElem? hi
  unfold field
  rw [split_joined (List.ne_nil_of_mem hmem) hdiff (fun e he => (hkeys e he).1) hvalues,
    List.getElem?_map, hi]
  show (split inner (entry inner e.1 e.2))[1]? = some e.2
  rw [split_entry (hkeys e hmem).2 hinner hne]
  rfl

/-! ## Writing numbers -/

/-- `%d`. -/
def formatInt (n : ℤ) : Text :=
  if n < 0 then '-' :: Nat.toDigits 10 n.natAbs else Nat.toDigits 10 n.natAbs

/-- The digits, with zeros before them where there are fewer. -/
def padded (width n : ℕ) : Text :=
  List.replicate (width - (Nat.toDigits 10 n).length) '0' ++ Nat.toDigits 10 n

section fixed

variable {K : Type} [Field K] [LinearOrder K] [FloorRing K]

/-- The size of a number in units of the last decimal, halves up. -/
def halfUp (decimals : ℕ) (x : K) : ℕ := ⌊|x| * (10 : ℕ) ^ decimals + 1 / (2 : ℕ)⌋.toNat

/-- `%.2f`, for any number of decimals but none. -/
def formatFixed (decimals : ℕ) (x : K) : Text :=
  let n := halfUp decimals x
  let digits :=
    Nat.toDigits 10 (n / 10 ^ decimals) ++ '.' :: padded decimals (n % 10 ^ decimals)
  if x < 0 then '-' :: digits else digits

/-- The number that is written. -/
def rounded (decimals : ℕ) (x : K) : K :=
  if x < 0 then -(halfUp decimals x / (10 : ℕ) ^ decimals)
  else halfUp decimals x / (10 : ℕ) ^ decimals

end fixed

/-! ## Reading them -/

def isSpace (c : Char) : Bool := c ≤ ' '

def trim (s : Text) : Text := ((s.dropWhile isSpace).reverse.dropWhile isSpace).reverse

/-- Whether there is a minus, and what follows the sign. -/
def sign : Text → Bool × Text
  | '-' :: rest => (true, rest)
  | '+' :: rest => (false, rest)
  | rest => (false, rest)

def signed {A : Type} [Neg A] (neg : Bool) (x : A) : A := if neg then -x else x

/-- A whole number of some bits, none where it is none or too big. -/
def parseWhole (bits : ℕ) (s : Text) : Option ℤ :=
  let (neg, digits) := sign s
  if digits = [] ∨ ¬ digits.all Char.isDigit then none
  else
    let n := signed neg (Nat.ofDigitChars 10 digits 0 : ℤ)
    if -2 ^ (bits - 1) ≤ n ∧ n < 2 ^ (bits - 1) then some n else none

/-- `Integer.parseInt`, none where it throws. -/
def parseInt (s : Text) : Option ℤ := parseWhole 32 s

/-- `Long.parseLong`, none where it throws. -/
def parseLong (s : Text) : Option ℤ := parseWhole 64 s

/-- An exponent, and what follows it. -/
def exponent : Text → Option (ℤ × Text)
  | [] => some (0, [])
  | c :: rest =>
    if c = 'e' ∨ c = 'E' then
      let (neg, rest) := sign rest
      let digits := rest.takeWhile Char.isDigit
      if digits = [] then none
      else some (signed neg (Nat.ofDigitChars 10 digits 0 : ℤ), rest.dropWhile Char.isDigit)
    else some (0, c :: rest)

/-- The digits after a point, and what follows them. -/
def fraction : Text → Text × Text
  | '.' :: rest => (rest.takeWhile Char.isDigit, rest.dropWhile Char.isDigit)
  | rest => ([], rest)

/-- A decimal number without its sign. -/
def parseDecimal {K : Type} [Field K] (s : Text) : Option K :=
  let whole := s.takeWhile Char.isDigit
  let (decimals, rest) := fraction (s.dropWhile Char.isDigit)
  if whole ++ decimals = [] then none
  else
    (exponent rest).bind fun (e, rest) =>
      if rest ∈ [[], ['f'], ['F'], ['d'], ['D']] then
        some (Nat.ofDigitChars 10 (whole ++ decimals) 0 * 10 ^ (e - decimals.length))
      else none

/-- `Double.parseDouble`, none where it throws. The hexadecimal form is left out. -/
def parseDouble {K : Type} [Field K] (s : Text) : Option (Dbl K) :=
  let (neg, s) := sign (trim s)
  if s = "NaN".toList then some .nan
  else if s = "Infinity".toList then some (.inf neg)
  else (parseDecimal s).map fun x => .fin (signed neg x)

/-! ## What is written is read -/

theorem ofDigitChars_padded (width n : ℕ) : Nat.ofDigitChars 10 (padded width n) 0 = n := by
  unfold padded
  rw [Nat.ofDigitChars_append, Nat.ofDigitChars_replicate_zero, Nat.mul_zero,
    Nat.ofDigitChars_ten_toDigits]

theorem padded_isDigit {width n : ℕ} {c : Char} (h : c ∈ padded width n) : c.isDigit = true := by
  rcases List.mem_append.mp h with h | h
  · rw [List.eq_of_mem_replicate h]
    rfl
  · exact Nat.isDigit_of_mem_toDigits (by decide) (by decide) h

theorem padded_length {width n : ℕ} (hpos : 0 < width) (h : n < 10 ^ width) :
    (padded width n).length = width := by
  have hlength := (Nat.length_toDigits_le_iff (by decide : 1 < 10) hpos).mpr h
  unfold padded
  rw [List.length_append, List.length_replicate]
  omega

theorem sign_of_digits {s : Text} (h : ∀ c ∈ s.head?, c.isDigit = true) : sign s = (false, s) := by
  cases s with
  | nil => rfl
  | cons c rest =>
    have hdigit := h c rfl
    unfold sign
    split
    · rename_i heq
      obtain ⟨rfl, -⟩ := List.cons.inj heq
      cases hdigit
    · rename_i heq
      obtain ⟨rfl, -⟩ := List.cons.inj heq
      cases hdigit
    · rfl

theorem head_toDigits (n : ℕ) (rest : Text) :
    ∀ c ∈ (Nat.toDigits 10 n ++ rest).head?, c.isDigit = true := by
  intro c hc
  rw [List.head?_append_of_ne_nil _ Nat.toDigits_ne_nil] at hc
  exact Nat.isDigit_of_mem_toDigits (by decide) (by decide) (List.mem_of_mem_head? hc)

theorem formatInt_chars {n : ℤ} {c : Char} (h : c ∈ formatInt n) : c.isDigit = true ∨ c = '-' := by
  unfold formatInt at h
  split at h
  · rcases List.mem_cons.mp h with h | h
    · exact Or.inr h
    · exact Or.inl (Nat.isDigit_of_mem_toDigits (by decide) (by decide) h)
  · exact Or.inl (Nat.isDigit_of_mem_toDigits (by decide) (by decide) h)

theorem formatInt_ne_nil (n : ℤ) : formatInt n ≠ [] := by
  unfold formatInt
  split
  · exact List.cons_ne_nil _ _
  · exact Nat.toDigits_ne_nil

theorem parseInt_formatInt {n : ℤ} (hlow : -2 ^ 31 ≤ n) (hhigh : n < 2 ^ 31) :
    parseInt (formatInt n) = some n := by
  have hall : (Nat.toDigits 10 n.natAbs).all Char.isDigit = true :=
    List.all_eq_true.mpr fun c hc => Nat.isDigit_of_mem_toDigits (by decide) (by decide) hc
  have hsign : sign (formatInt n) = (decide (n < 0), Nat.toDigits 10 n.natAbs) := by
    unfold formatInt
    by_cases hneg : n < 0
    · rw [if_pos hneg, decide_eq_true hneg]
      rfl
    · rw [if_neg hneg, decide_eq_false hneg]
      have := head_toDigits n.natAbs []
      rw [List.append_nil] at this
      exact sign_of_digits this
  have hvalue : signed (decide (n < 0)) ((n.natAbs : ℕ) : ℤ) = n := by
    unfold signed
    by_cases hneg : n < 0
    · rw [decide_eq_true hneg, if_pos rfl]
      omega
    · rw [decide_eq_false hneg, if_neg Bool.false_ne_true]
      omega
  unfold parseInt parseWhole
  rw [hsign]
  dsimp only
  rw [if_neg (by simp [Nat.toDigits_ne_nil, hall]), Nat.ofDigitChars_ten_toDigits, hvalue,
    if_pos ⟨hlow, hhigh⟩]

/-- Zeros before a number change nothing. -/
theorem parseLong_padded {n : ℕ} (width : ℕ) (h : n < 2 ^ 63) :
    parseLong (padded width n) = some (n : ℤ) := by
  have hne : padded width n ≠ [] := by
    unfold padded
    simp [Nat.toDigits_ne_nil]
  have hall : (padded width n).all Char.isDigit = true :=
    List.all_eq_true.mpr fun c hc => padded_isDigit hc
  have hsign : sign (padded width n) = (false, padded width n) :=
    sign_of_digits fun c hc => padded_isDigit (List.mem_of_mem_head? hc)
  unfold parseLong parseWhole
  rw [hsign]
  dsimp only
  rw [if_neg (by simp [hne, hall]), ofDigitChars_padded]
  unfold signed
  rw [if_neg Bool.false_ne_true, if_pos ⟨by omega, by exact_mod_cast h⟩]

theorem isSpace_of_isDigit {c : Char} (h : c.isDigit = true) : isSpace c = false := by
  unfold Char.isDigit at h
  rw [Bool.and_eq_true, decide_eq_true_eq, decide_eq_true_eq] at h
  unfold isSpace
  rw [decide_eq_false_iff_not, Char.le_def]
  have hlow : (48 : ℕ) ≤ c.val.toNat := h.1
  intro hle
  have hhigh : c.val.toNat ≤ 32 := hle
  omega

theorem trim_eq {s : Text} (h : ∀ c ∈ s, isSpace c = false) : trim s = s := by
  have hdrop : ∀ t : Text, (∀ c ∈ t, isSpace c = false) → t.dropWhile isSpace = t := by
    intro t ht
    cases t with
    | nil => rfl
    | cons c rest =>
      exact List.dropWhile_cons_of_neg (by rw [ht c List.mem_cons_self]; exact Bool.false_ne_true)
  unfold trim
  rw [hdrop s h, hdrop s.reverse (fun c hc => h c (List.mem_reverse.mp hc)), List.reverse_reverse]

theorem span_digits {digits : Text} (h : ∀ c ∈ digits, c.isDigit = true) (rest : Text)
    (hrest : ∀ c ∈ rest.head?, c.isDigit = false) :
    (digits ++ rest).takeWhile Char.isDigit = digits ∧
      (digits ++ rest).dropWhile Char.isDigit = rest := by
  rw [List.takeWhile_append_of_pos h, List.dropWhile_append_of_pos h]
  cases rest with
  | nil => exact ⟨List.append_nil _, rfl⟩
  | cons c rest =>
    have hc := hrest c rfl
    rw [List.takeWhile_cons_of_neg (by rw [hc]; exact Bool.false_ne_true),
      List.dropWhile_cons_of_neg (by rw [hc]; exact Bool.false_ne_true), List.append_nil]
    exact ⟨rfl, rfl⟩

theorem parseDecimal_point {K : Type} [Field K] {whole decimals : Text}
    (hwhole : ∀ c ∈ whole, c.isDigit = true) (hdecimals : ∀ c ∈ decimals, c.isDigit = true)
    (hne : whole ≠ []) : parseDecimal (whole ++ '.' :: decimals) =
      some ((Nat.ofDigitChars 10 (whole ++ decimals) 0 : K) / 10 ^ decimals.length) := by
  obtain ⟨htake, hdrop⟩ := span_digits hwhole ('.' :: decimals) (by rintro c ⟨⟩; rfl)
  obtain ⟨htake', hdrop'⟩ := span_digits hdecimals [] (by rintro c ⟨⟩)
  rw [List.append_nil] at htake' hdrop'
  have hfraction : fraction ('.' :: decimals) = (decimals, []) := Prod.ext htake' hdrop'
  unfold parseDecimal
  rw [htake, hdrop, hfraction]
  dsimp only
  rw [if_neg (by simp [hne])]
  show some ((Nat.ofDigitChars 10 (whole ++ decimals) 0 : K) * 10 ^ (0 - (decimals.length : ℤ))) = _
  rw [zero_sub, zpow_neg, zpow_natCast, div_eq_mul_inv]

section fixed

variable {K : Type} [Field K] [LinearOrder K] [FloorRing K]

theorem formatFixed_chars {decimals : ℕ} {x : K} {c : Char} (h : c ∈ formatFixed decimals x) :
    c.isDigit = true ∨ c = '.' ∨ c = '-' := by
  have hdigits : c ∈ Nat.toDigits 10 (halfUp decimals x / 10 ^ decimals) ++
      '.' :: padded decimals (halfUp decimals x % 10 ^ decimals) → c.isDigit = true ∨ c = '.' := by
    intro h
    rcases List.mem_append.mp h with h | h
    · exact Or.inl (Nat.isDigit_of_mem_toDigits (by decide) (by decide) h)
    · rcases List.mem_cons.mp h with h | h
      · exact Or.inr h
      · exact Or.inl (padded_isDigit h)
  unfold formatFixed at h
  dsimp only at h
  split at h
  · rcases List.mem_cons.mp h with h | h
    · exact Or.inr (Or.inr h)
    · exact (hdigits h).imp_right Or.inl
  · exact (hdigits h).imp_right Or.inl

theorem formatFixed_ne_nil (decimals : ℕ) (x : K) : formatFixed decimals x ≠ [] := by
  unfold formatFixed
  dsimp only
  split <;> simp

theorem halfUp_split (decimals : ℕ) (x : K) {digits : Text}
    (hlength : digits.length = decimals)
    (hvalue : Nat.ofDigitChars 10 digits 0 = halfUp decimals x % 10 ^ decimals) :
    Nat.ofDigitChars 10 (Nat.toDigits 10 (halfUp decimals x / 10 ^ decimals) ++ digits) 0 =
      halfUp decimals x := by
  rw [Nat.ofDigitChars_append, Nat.ofDigitChars_ten_toDigits, Nat.ofDigitChars_eq_ofDigitChars_zero,
    hlength, hvalue]
  exact Nat.div_add_mod _ _

/-- A number is read as the one that was written. -/
theorem parseDouble_formatFixed {decimals : ℕ} (hpos : 0 < decimals) (x : K) :
    parseDouble (formatFixed decimals x) = some (.fin (rounded decimals x)) := by
  have hspace : ∀ c ∈ formatFixed decimals x, isSpace c = false := by
    intro c hc
    rcases formatFixed_chars hc with hdigit | rfl | rfl
    · exact isSpace_of_isDigit hdigit
    · rfl
    · rfl
  have hmod : halfUp decimals x % 10 ^ decimals < 10 ^ decimals := Nat.mod_lt _ (by positivity)
  set whole := Nat.toDigits 10 (halfUp decimals x / 10 ^ decimals) with hwhole
  set digits := padded decimals (halfUp decimals x % 10 ^ decimals) with hdigits
  have hsign : sign (formatFixed decimals x) = (decide (x < 0), whole ++ '.' :: digits) := by
    unfold formatFixed
    dsimp only
    by_cases hneg : x < 0
    · rw [if_pos hneg, decide_eq_true hneg]
      rfl
    · rw [if_neg hneg, decide_eq_false hneg]
      exact sign_of_digits (head_toDigits _ _)
  have hpoint : ∀ t : Text, '.' ∉ t → whole ++ '.' :: digits ≠ t := by
    rintro t ht rfl
    exact ht (List.mem_append_right _ List.mem_cons_self)
  have hnumber : parseDecimal (whole ++ '.' :: digits) =
      some ((halfUp decimals x : K) / 10 ^ decimals) := by
    rw [parseDecimal_point (fun c hc => Nat.isDigit_of_mem_toDigits (by decide) (by decide) hc)
      (fun c hc => padded_isDigit hc) Nat.toDigits_ne_nil,
      halfUp_split _ _ (padded_length hpos hmod) (ofDigitChars_padded _ _),
      padded_length hpos hmod]
  unfold parseDouble
  rw [trim_eq hspace, hsign]
  dsimp only
  rw [if_neg (hpoint _ (by decide)), if_neg (hpoint _ (by decide)), hnumber]
  show some (Dbl.fin (signed (decide (x < 0)) _)) = _
  unfold signed rounded
  rw [Nat.cast_ofNat]
  by_cases hneg : x < 0
  · rw [decide_eq_true hneg, if_pos rfl, if_pos hneg]
  · rw [decide_eq_false hneg, if_neg Bool.false_ne_true, if_neg hneg]

/-- It is at most half a unit of the last decimal away. -/
theorem rounded_close [IsStrictOrderedRing K] (decimals : ℕ) (x : K) :
    |rounded decimals x - x| ≤ 1 / 2 / 10 ^ decimals := by
  have hpow : (0 : K) < 10 ^ decimals := by positivity
  have hclose : |(halfUp decimals x : K) - |x| * 10 ^ decimals| ≤ 1 / 2 := by
    have hnonneg : 0 ≤ ⌊|x| * 10 ^ decimals + 1 / 2⌋ := Int.floor_nonneg.mpr (by positivity)
    have hcast : (halfUp decimals x : K) = (⌊|x| * 10 ^ decimals + 1 / 2⌋ : K) := by
      unfold halfUp
      exact_mod_cast Int.toNat_of_nonneg hnonneg
    have hlow := Int.floor_le (|x| * 10 ^ decimals + 1 / 2)
    have hhigh := Int.lt_floor_add_one (|x| * 10 ^ decimals + 1 / 2)
    rw [hcast, abs_le]
    constructor <;> linarith
  have habs : |rounded decimals x - x| =
      |(halfUp decimals x : K) - |x| * 10 ^ decimals| / 10 ^ decimals := by
    rw [← abs_of_pos hpow, ← abs_div, abs_of_pos hpow, sub_div, mul_div_cancel_right₀ _ hpow.ne']
    unfold rounded
    rw [Nat.cast_ofNat]
    by_cases hneg : x < 0
    · rw [if_pos hneg, abs_of_neg hneg, ← abs_neg]
      congr 1
      ring
    · rw [if_neg hneg, abs_of_nonneg (not_lt.mp hneg)]
  rw [habs]
  exact div_le_div_of_nonneg_right hclose hpow.le

end fixed

end lib.text

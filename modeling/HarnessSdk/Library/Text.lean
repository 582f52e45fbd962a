import Mathlib

/-! Text operations with the behaviour of Python's `str`. -/
namespace PyText

instance charsLawful : LawfulBEq (List Char) := inferInstance

/-- The characters `str.isspace` accepts. -/
def isSpace (c : Char) : Bool :=
  let n := c.toNat
  (9 ≤ n && n ≤ 13) || (28 ≤ n && n ≤ 32) || n == 0x85 || n == 0xA0 || n == 0x1680 ||
    (0x2000 ≤ n && n ≤ 0x200A) || n == 0x2028 || n == 0x2029 || n == 0x202F || n == 0x205F ||
    n == 0x3000

def stripChars (cs : List Char) : List Char :=
  ((cs.dropWhile isSpace).reverse.dropWhile isSpace).reverse

def strip (s : String) : String := String.ofList (stripChars s.toList)

/-- `s.split(sep, 1)` as a pair; the second part is empty when `sep` does not occur. -/
def splitOnce (sep : Char) (s : String) : String × String :=
  (String.ofList (s.toList.takeWhile (· != sep)),
    String.ofList ((s.toList.dropWhile (· != sep)).drop 1))

/-- `s.split("->", 1)` when the arrow occurs in `s`. -/
def splitArrowChars : List Char → Option (List Char × List Char)
  | '-' :: '>' :: rest => some ([], rest)
  | c :: rest => (splitArrowChars rest).map fun parts => (c :: parts.1, parts.2)
  | [] => none

def splitArrow (s : String) : Option (String × String) :=
  (splitArrowChars s.toList).map fun parts => (String.ofList parts.1, String.ofList parts.2)

def join (sep : String) : List String → String
  | [] => ""
  | [s] => s
  | s :: t :: rest => s ++ sep ++ join sep (t :: rest)

/-- `sorted(items, key=key)`: stable, ascending. -/
def sortedBy {α : Type} (key : α → String) (items : List α) : List α :=
  items.insertionSort (fun a b => key a ≤ key b)

def sorted (items : List String) : List String := sortedBy id items

def sortedByKeys {α : Type} (key : α → List String) (items : List α) : List α :=
  items.insertionSort (fun a b => key a ≤ key b)

/-- A message kept in pieces, where a piece written with `!r` is left unquoted. -/
inductive Fragment
  | text (s : String)
  | repr (s : String)
deriving DecidableEq

def hexDigits (width n : Nat) : List Char :=
  let digits := Nat.toDigits 16 n
  List.replicate (width - digits.length) '0' ++ digits

section
variable (printable : Char → Bool)

/-- One character inside a quoted text; beyond ASCII `printable` is `str.isprintable`. -/
def escapeChar (quote c : Char) : List Char :=
  let n := c.toNat
  if c = quote ∨ c = '\\' then ['\\', c]
  else if c = '\t' then ['\\', 't']
  else if c = '\n' then ['\\', 'n']
  else if c = '\r' then ['\\', 'r']
  else if 32 ≤ n ∧ n < 127 then [c]
  else if 127 < n ∧ printable c then [c]
  else if n < 0x100 then '\\' :: 'x' :: hexDigits 2 n
  else if n < 0x10000 then '\\' :: 'u' :: hexDigits 4 n
  else '\\' :: 'U' :: hexDigits 8 n

def singleQuote : Char := Char.ofNat 39

def doubleQuote : Char := Char.ofNat 34

/-- `repr(s)`: double quotes only where the text holds a single quote and no double one. -/
def quoted (s : String) : String :=
  let quote := if singleQuote ∈ s.toList ∧ doubleQuote ∉ s.toList then doubleQuote else singleQuote
  String.ofList (quote :: s.toList.flatMap (escapeChar printable quote) ++ [quote])

def Fragment.rendered : Fragment → String
  | .text s => s
  | .repr s => quoted printable s

def render (pieces : List Fragment) : String :=
  join "" (pieces.map (Fragment.rendered printable))

end

/-- `needle in hay`. -/
def occursIn (needle hay : String) : Bool := decide (needle.toList <:+: hay.toList)

theorem toList_join (sep : String) (parts : List String) :
    (join sep parts).toList = List.intercalate sep.toList (parts.map String.toList) := by
  induction parts with
  | nil => rfl
  | cons s rest ih =>
    cases rest with
    | nil => simp [join, List.intercalate]
    | cons t rest =>
      simp only [join, String.toList_append, ih]
      simp [List.intercalate]

theorem perm_sortedBy {α : Type} (key : α → String) (items : List α) :
    (sortedBy key items).Perm items :=
  List.perm_insertionSort _ items

@[simp] theorem mem_sortedBy {α : Type} (key : α → String) (items : List α) (x : α) :
    x ∈ sortedBy key items ↔ x ∈ items :=
  (perm_sortedBy key items).mem_iff

@[simp] theorem mem_sorted (items : List String) (x : String) : x ∈ sorted items ↔ x ∈ items :=
  mem_sortedBy id items x

@[simp] theorem mem_sortedByKeys {α : Type} (key : α → List String) (items : List α) (x : α) :
    x ∈ sortedByKeys key items ↔ x ∈ items :=
  (List.perm_insertionSort _ items).mem_iff

theorem sort_of_perm {α β : Type} [LinearOrder β] {key : α → β} {items items' : List α}
    (same : items.Perm items') (apart : ∀ a ∈ items, ∀ b ∈ items, key a = key b → a = b) :
    items.insertionSort (fun a b => key a ≤ key b) =
      items'.insertionSort (fun a b => key a ≤ key b) := by
  have total : Std.Total fun a b => key a ≤ key b := ⟨fun a b => le_total (key a) (key b)⟩
  have trans : IsTrans α fun a b => key a ≤ key b := ⟨fun _ _ _ => le_trans⟩
  have left := List.perm_insertionSort (fun a b => key a ≤ key b) items
  have right := List.perm_insertionSort (fun a b => key a ≤ key b) items'
  apply List.Perm.eq_of_pairwise _ (List.pairwise_insertionSort _ items)
    (List.pairwise_insertionSort _ items') ((left.trans same).trans right.symm)
  intro a b ha hb le ge
  exact apart a (left.mem_iff.mp ha) b (same.mem_iff.mpr (right.mem_iff.mp hb)) (le_antisymm le ge)

theorem sortedBy_idem {α : Type} (key : α → String) (items : List α) :
    sortedBy key (sortedBy key items) = sortedBy key items := by
  have total : Std.Total fun a b => key a ≤ key b := ⟨fun a b => le_total (key a) (key b)⟩
  have trans : IsTrans α fun a b => key a ≤ key b := ⟨fun _ _ _ => le_trans⟩
  exact (List.pairwise_insertionSort (fun a b => key a ≤ key b) items).insertionSort_eq

theorem sortedByKeys_of_perm {α : Type} {key : α → List String} {items items' : List α}
    (same : items.Perm items') (apart : ∀ a ∈ items, ∀ b ∈ items, key a = key b → a = b) :
    sortedByKeys key items = sortedByKeys key items' :=
  sort_of_perm same apart

variable {cs : List Char} {sep : Char}

theorem stripChars_of_no_space (solid : ∀ c ∈ cs, isSpace c = false) : stripChars cs = cs := by
  have front : ∀ l : List Char, (∀ c ∈ l, isSpace c = false) → l.dropWhile isSpace = l := by
    intro l hl
    cases l with
    | nil => rfl
    | cons c rest => simp [hl c (by simp)]
  have back : (∀ c ∈ cs.reverse, isSpace c = false) := by simpa using solid
  rw [stripChars, front cs solid, front cs.reverse back, List.reverse_reverse]

theorem strip_of_no_space {s : String} (solid : ∀ c ∈ s.toList, isSpace c = false) :
    strip s = s := by
  rw [strip, stripChars_of_no_space solid, String.ofList_toList]

theorem takeWhile_append_sep (absent : sep ∉ cs) (rest : List Char) :
    (cs ++ sep :: rest).takeWhile (· != sep) = cs := by
  induction cs with
  | nil => simp
  | cons c cs ih =>
    simp only [List.mem_cons, not_or] at absent
    simp [Ne.symm absent.1, ih absent.2]

theorem dropWhile_append_sep (absent : sep ∉ cs) (rest : List Char) :
    (cs ++ sep :: rest).dropWhile (· != sep) = sep :: rest := by
  induction cs with
  | nil => simp
  | cons c cs ih =>
    simp only [List.mem_cons, not_or] at absent
    simp [Ne.symm absent.1, ih absent.2]

theorem splitOnce_first_absent (sep : Char) (s : String) :
    sep ∉ (splitOnce sep s).1.toList := by
  intro found
  rw [splitOnce, String.toList_ofList] at found
  have := List.mem_takeWhile_imp found
  simp at this

theorem splitOnce_append {a : String} (absent : ':' ∉ a.toList) (b : String) :
    splitOnce ':' (a ++ ":" ++ b) = (a, b) := by
  have chars : (a ++ ":" ++ b).toList = a.toList ++ ':' :: b.toList := by
    simp [String.toList_append]
  rw [splitOnce, chars, takeWhile_append_sep absent, dropWhile_append_sep absent]
  simp

theorem append_sep_inj {a b c d : List Char} (ha : sep ∉ a) (hc : sep ∉ c)
    (same : a ++ sep :: b = c ++ sep :: d) : a = c ∧ b = d := by
  have first := congrArg (List.takeWhile (· != sep)) same
  have second := congrArg (List.dropWhile (· != sep)) same
  rw [takeWhile_append_sep ha, takeWhile_append_sep hc] at first
  rw [dropWhile_append_sep ha, dropWhile_append_sep hc] at second
  exact ⟨first, (List.cons.inj second).2⟩

theorem isDigit_of_mem_repr {n : Nat} : ∀ c ∈ (toString n).toList, c.isDigit := by
  intro c inside
  have digits : c ∈ Nat.toDigits 10 n := by simpa using inside
  exact Nat.isDigit_of_mem_toDigits (by decide) (by decide) digits

theorem colon_not_mem_repr (n : Nat) : ':' ∉ (toString n).toList := by
  intro found
  exact absurd (isDigit_of_mem_repr _ found) (by decide)

theorem repr_inj {m n : Nat} (same : (toString m).toList = (toString n).toList) : m = n := by
  have digits : Nat.toDigits 10 m = Nat.toDigits 10 n := by simpa using same
  have values := congrArg (fun cs => Nat.ofDigitChars 10 cs 0) digits
  simpa using values

/-- A text keyed by a number: the number stands after the last colon. -/
theorem keyed_inj {a b : String} {m n : Nat}
    (same : a ++ ":" ++ toString m = b ++ ":" ++ toString n) : a = b ∧ m = n := by
  have chars : a.toList ++ ':' :: (toString m).toList = b.toList ++ ':' :: (toString n).toList := by
    have := congrArg String.toList same
    simpa [String.toList_append] using this
  have reversed := congrArg List.reverse chars
  simp only [List.reverse_append, List.reverse_cons, List.append_assoc,
    List.singleton_append] at reversed
  have parts := append_sep_inj (by simpa using colon_not_mem_repr m)
    (by simpa using colon_not_mem_repr n) reversed
  exact ⟨String.toList_inj.mp (List.reverse_inj.mp parts.2),
    repr_inj (List.reverse_inj.mp parts.1)⟩

/-- A text after its length: neither part can borrow from the other. -/
theorem length_keyed_inj {a b c d : String}
    (same : toString a.length ++ ":" ++ (a ++ ":" ++ b) = toString c.length ++ ":" ++ (c ++ ":" ++ d)) :
    a = c ∧ b = d := by
  have chars : (toString a.length).toList ++ ':' :: (a.toList ++ ':' :: b.toList) =
      (toString c.length).toList ++ ':' :: (c.toList ++ ':' :: d.toList) := by
    have := congrArg String.toList same
    simpa [String.toList_append] using this
  have parts := append_sep_inj (colon_not_mem_repr _) (colon_not_mem_repr _) chars
  have lengths : a.toList.length = c.toList.length := by
    rw [String.length_toList, String.length_toList]
    exact repr_inj parts.1
  have split := List.append_inj parts.2 lengths
  exact ⟨String.toList_inj.mp split.1, String.toList_inj.mp (List.cons.inj split.2).2⟩

theorem dropWhile_idem (p : Char → Bool) (cs : List Char) :
    (cs.dropWhile p).dropWhile p = cs.dropWhile p := by
  induction cs with
  | nil => rfl
  | cons c cs ih =>
    by_cases hc : p c
    · simpa [hc] using ih
    · simp [hc]

theorem stripChars_idem (cs : List Char) : stripChars (stripChars cs) = stripChars cs := by
  have front : (stripChars cs).dropWhile isSpace = stripChars cs := by
    rw [List.dropWhile_eq_self_iff]
    intro nonempty
    have kept : stripChars cs <+: cs.dropWhile isSpace := by
      rw [stripChars, ← List.reverse_suffix, List.reverse_reverse]
      exact List.dropWhile_suffix isSpace
    obtain ⟨rest, whole⟩ := kept
    have start : (cs.dropWhile isSpace).head? = (stripChars cs).head? := by
      rw [← whole, List.head?_append_of_ne_nil _ (List.ne_nil_of_length_pos nonempty)]
    have head := List.head?_dropWhile_not isSpace cs
    rw [start, List.head?_eq_getElem?, List.getElem?_eq_getElem nonempty] at head
    simpa using head
  rw [stripChars, front]
  rw [stripChars, List.reverse_reverse, dropWhile_idem]

theorem strip_idem (s : String) : strip (strip s) = strip s := by
  rw [strip, strip, String.toList_ofList, stripChars_idem]

theorem strip_ne_empty {s : String} {c : Char} (inside : c ∈ s.toList) (solid : isSpace c = false) :
    strip s ≠ "" := by
  intro empty
  have noChars : stripChars s.toList = [] := by
    have chars := congrArg String.toList empty
    simpa [strip] using chars
  rw [stripChars, List.reverse_eq_nil_iff, List.dropWhile_eq_nil_iff] at noChars
  have front : s.toList.dropWhile isSpace = [] := by
    rw [List.eq_nil_iff_forall_not_mem]
    intro d hd
    have head := List.head?_dropWhile_not isSpace s.toList
    obtain ⟨first, rest, whole⟩ := List.exists_cons_of_ne_nil (List.ne_nil_of_mem hd)
    rw [whole] at head
    have spaced := noChars first (by simp [whole])
    simp [spaced] at head
  have spaced := List.dropWhile_eq_nil_iff.mp front c inside
  rw [solid] at spaced
  cases spaced

end PyText

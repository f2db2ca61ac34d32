import Mathlib.Data.List.TakeWhile
import Mathlib.Data.Nat.Digits.Defs
import Mathlib.Tactic

/-!
# Numbers in JSON texts

A number is read as the longest text of its grammar: a sign, digits, a fraction
and an exponent. One that is an integer as it would be written is taken as that
integer; every other one (`1.5`, `2e3`, `-0`) is kept as a literal.

* `number_integer`: an integer is read back.
* `token_literal`, `token_integer`: the text of a number is read back from any
  text that does not continue it.
-/
namespace Mossward.Json

open Option List

def integer : Int → List Char
  | .ofNat n => Nat.toDigits 10 n
  | .negSucc n => '-' :: Nat.toDigits 10 (n + 1)

/-- A number without a sign: no zero stands before another digit. -/
def natural (s : List Char) : Option (Nat × List Char) :=
  let ds := s.takeWhile Char.isDigit
  if ds = [] || (ds.head? = some '0' && 1 < ds.length) then none
  else some (Nat.ofDigitChars 10 ds 0, s.dropWhile Char.isDigit)

def number : List Char → Option (Int × List Char)
  | [] => none
  | c :: s =>
    if c = '-' then (natural s).map fun (n, rest) => (-(n : Int), rest)
    else (natural (c :: s)).map fun (n, rest) => ((n : Int), rest)

/-! ## Texts of numbers -/

/-- The text of a part of a number, and the rest. -/
abbrev Part : Type := List Char → Option (List Char × List Char)

/-- Nothing is read. -/
def Part.empty : Part := fun s => some ([], s)

/-- One part after the other. -/
def Part.seq (p q : Part) : Part := fun s =>
  match p s with
  | none => none
  | some (l, rest) => (q rest).map fun x => (l ++ x.1, x.2)

/-- A part that one of these characters starts. -/
def Part.optional (start : List Char) (p : Part) : Part
  | [] => some ([], [])
  | c :: s => if c ∈ start then (p s).map fun x => (c :: x.1, x.2) else some ([], c :: s)

def digits : Part := fun s =>
  if s.takeWhile Char.isDigit = [] then none else some (s.takeWhile Char.isDigit, s.dropWhile Char.isDigit)

/-- No zero stands before another digit. -/
def whole : Part := fun s =>
  if (s.takeWhile Char.isDigit).head? = some '0' ∧ 1 < (s.takeWhile Char.isDigit).length then none else digits s

def sign : Part := .optional ['-'] .empty

def fraction : Part := .optional ['.'] digits

def exponent : Part := .optional ['e', 'E'] ((Part.optional ['+', '-'] .empty).seq digits)

/-- The longest number at the start of the text. -/
def token : Part := sign.seq (whole.seq (fraction.seq exponent))

/-- The integer that is written like this. -/
def integerOf (l : List Char) : Option Int :=
  match number l with
  | some (n, []) => if integer n = l then some n else none
  | _ => none

/-- The text of a number that no integer is written as. -/
structure Literal where
  text : List Char
  isWhole : token text = some (text, [])
  notInteger : integerOf text = none
deriving DecidableEq

/-! ## Integers are read back -/

/-- The text after a number does not continue it. -/
def NoDigit (rest : List Char) : Prop := ∀ c ∈ rest.head?, c.isDigit = false

theorem isDigit_toDigits {c : Char} {n : Nat} (h : c ∈ Nat.toDigits 10 n) : c.isDigit = true :=
  Nat.isDigit_of_mem_toDigits (show 0 < 10 by decide) (le_refl 10) h

theorem toDigits_head {n : Nat} (h : 0 < n) : (Nat.toDigits 10 n).head? ≠ some '0' := by
  induction n using Nat.strong_induction_on with
  | _ n ih =>
    by_cases hl : n < 10
    · rw [Nat.toDigits_of_lt_base hl]
      have key : ∀ i : Fin 10, 0 < i.val → [Nat.digitChar i.val].head? ≠ some '0' := by decide
      exact key ⟨n, hl⟩ h
    · rw [Nat.toDigits_of_base_le (by decide) (by omega), head?_append_of_ne_nil _ (Nat.toDigits_ne_nil)]
      exact ih (n / 10) (by omega) (by omega)

theorem no_leading_zero (n : Nat) : ¬ ((Nat.toDigits 10 n).head? = some '0' ∧ 1 < (Nat.toDigits 10 n).length) := by
  rintro ⟨hh, hl⟩
  rcases Nat.eq_zero_or_pos n with rfl | hp
  · exact absurd hl (by decide)
  · exact toDigits_head hp hh

variable {rest : List Char}

theorem natural_toDigits (n : Nat) (hr : NoDigit rest) :
    natural (Nat.toDigits 10 n ++ rest) = some (n, rest) := by
  have ha : ∀ c ∈ Nat.toDigits 10 n, c.isDigit = true := fun c hc => isDigit_toDigits hc
  have hs : rest.takeWhile Char.isDigit = [] ∧ rest.dropWhile Char.isDigit = rest := by
    cases rest with
    | nil => simp
    | cons c rest =>
      have : c.isDigit = false := hr c rfl
      simp [this]
  have ht : (Nat.toDigits 10 n ++ rest).takeWhile Char.isDigit = Nat.toDigits 10 n := by
    rw [takeWhile_append_of_pos ha, hs.1, append_nil]
  have hd : (Nat.toDigits 10 n ++ rest).dropWhile Char.isDigit = rest := by
    rw [dropWhile_append_of_pos ha, hs.2]
  have hz := no_leading_zero n
  unfold natural
  rw [ht, hd, if_neg (by simpa [Nat.toDigits_ne_nil] using hz), Nat.ofDigitChars_ten_toDigits]

theorem number_integer (n : Int) (hre : NoDigit rest) : number (integer n ++ rest) = some (n, rest) := by
  cases n with
  | ofNat n =>
    obtain ⟨c, s, hcs⟩ := exists_cons_of_ne_nil (@Nat.toDigits_ne_nil n 10)
    have hc : c ≠ '-' := by
      have hd : c.isDigit = true := isDigit_toDigits (hcs ▸ mem_cons_self)
      rintro rfl
      exact absurd hd (by decide)
    have hr := natural_toDigits n hre
    rw [hcs, cons_append] at hr
    simp only [integer]
    rw [hcs, cons_append, number, if_neg hc, hr]
    rfl
  | negSucc n =>
    simp only [integer]
    rw [cons_append, number, natural_toDigits _ hre]
    rfl

/-! ## Texts of numbers are read back -/

/-- The text after a number does not continue it. -/
def Stops (rest : List Char) : Prop := ∀ c ∈ rest.head?, c.isDigit = false ∧ c ∉ ['.', 'e', 'E', '+', '-']

theorem stops_nil : Stops [] := by
  intro c hc
  cases hc

theorem Stops.noDigit (h : Stops rest) : NoDigit rest := fun c hc => (h c hc).1

/-- What a part reads from a text it reads from every longer one, if what
follows does not continue a number that ends there. -/
structure Part.Steady (p : Part) : Prop where
  ends : ∀ {l r : List Char}, p [] = some (l, r) → r = []
  append : ∀ {s l r rest : List Char}, p s = some (l, r) → (r = [] → Stops rest) → p (s ++ rest) = some (l, r ++ rest)

theorem Part.Steady.empty : Part.empty.Steady where
  ends h := (Prod.mk.inj (some.inj h)).2.symm
  append h _ := by
    obtain ⟨rfl, rfl⟩ := Prod.mk.inj (some.inj h)
    rfl

theorem Part.seq_eq_some {p q : Part} {s l r : List Char} :
    p.seq q s = some (l, r) ↔ ∃ l1 r1 l2, p s = some (l1, r1) ∧ q r1 = some (l2, r) ∧ l = l1 ++ l2 := by
  unfold Part.seq
  cases hp : p s with
  | none => simp
  | some x =>
    obtain ⟨l1, r1⟩ := x
    simp only [map_eq_some_iff, Prod.mk.injEq, some.injEq]
    constructor
    · rintro ⟨⟨l2, r2⟩, hq, rfl, rfl⟩
      exact ⟨l1, r1, l2, ⟨rfl, rfl⟩, hq, rfl⟩
    · rintro ⟨l1, r1, l2, ⟨rfl, rfl⟩, hq, rfl⟩
      exact ⟨(l2, r), hq, rfl, rfl⟩

theorem Part.Steady.seq {p q : Part} (hp : p.Steady) (hq : q.Steady) : (p.seq q).Steady where
  ends {l r} h := by
    obtain ⟨l1, r1, l2, h1, h2, -⟩ := Part.seq_eq_some.mp h
    obtain rfl := hp.ends h1
    exact hq.ends h2
  append {s l r rest} h hr := by
    obtain ⟨l1, r1, l2, h1, h2, rfl⟩ := Part.seq_eq_some.mp h
    have hf : r1 = [] → Stops rest := by
      intro hn
      subst hn
      exact hr (hq.ends h2)
    exact Part.seq_eq_some.mpr ⟨l1, r1 ++ rest, l2, hp.append h1 hf, hq.append h2 hr, rfl⟩

theorem Part.Steady.optional {p : Part} (hp : p.Steady) {start : List Char}
    (hs : start ⊆ ['.', 'e', 'E', '+', '-']) : (Part.optional start p).Steady where
  ends h := (Prod.mk.inj (some.inj h)).2.symm
  append {s l r rest} h hrest := by
    cases s with
    | nil =>
      obtain ⟨rfl, rfl⟩ := Prod.mk.inj (some.inj h)
      cases rest with
      | nil => rfl
      | cons c rest =>
        have hc : c ∉ start := fun hc => (hrest rfl c rfl).2 (hs hc)
        exact if_neg hc
    | cons c s =>
      rw [Part.optional] at h
      rw [cons_append, Part.optional]
      split at h
      · rename_i hc
        obtain ⟨⟨l', r'⟩, hr, he⟩ := map_eq_some_iff.mp h
        obtain ⟨rfl, rfl⟩ := Prod.mk.inj he
        rw [if_pos hc, hp.append hr hrest]
        rfl
      · rename_i hc
        obtain ⟨rfl, rfl⟩ := Prod.mk.inj (some.inj h)
        rw [if_neg hc]
        rfl

theorem takeWhile_digit_append {s : List Char} (hr : s.dropWhile Char.isDigit = [] → Stops rest) :
    (s ++ rest).takeWhile Char.isDigit = s.takeWhile Char.isDigit ∧
      (s ++ rest).dropWhile Char.isDigit = s.dropWhile Char.isDigit ++ rest := by
  induction s with
  | nil =>
    cases rest with
    | nil => exact ⟨rfl, rfl⟩
    | cons c rest =>
      have hc : c.isDigit = false := (hr rfl c rfl).1
      simp [hc]
  | cons c s ih =>
    by_cases hc : c.isDigit = true
    · have hs := ih (by simpa [hc] using hr)
      simp [hc, hs]
    · simp [hc]

theorem Part.Steady.digits : Part.Steady digits where
  ends h := by
    cases h
  append {s l r rest} h hrest := by
    unfold Json.digits at h ⊢
    split at h
    · cases h
    rename_i hn
    obtain ⟨rfl, rfl⟩ := Prod.mk.inj (some.inj h)
    obtain ⟨ht, hd⟩ := takeWhile_digit_append hrest
    rw [ht, hd, if_neg hn]

theorem Part.Steady.whole : Part.Steady whole where
  ends h := by
    cases h
  append {s l r rest} h hrest := by
    unfold Json.whole at h
    split at h
    · cases h
    rename_i hz
    have hd : s.dropWhile Char.isDigit = r := by
      unfold Json.digits at h
      split at h
      · cases h
      · exact (Prod.mk.inj (some.inj h)).2
    subst hd
    unfold Json.whole
    rw [(takeWhile_digit_append hrest).1, if_neg hz]
    exact Part.Steady.digits.append h hrest

theorem token_steady : token.Steady :=
  (Part.Steady.empty.optional (by decide)).seq (.seq .whole (.seq (Part.Steady.digits.optional (by decide))
    (.optional (.seq (Part.Steady.empty.optional (by decide)) .digits) (by decide))))

theorem token_literal (l : Literal) (hr : Stops rest) : token (l.text ++ rest) = some (l.text, rest) :=
  token_steady.append l.isWhole fun _ => hr

theorem whole_toDigits (n : Nat) : whole (Nat.toDigits 10 n) = some (Nat.toDigits 10 n, []) := by
  have ha : ∀ c ∈ Nat.toDigits 10 n, c.isDigit = true := fun c hc => isDigit_toDigits hc
  have ht : (Nat.toDigits 10 n).takeWhile Char.isDigit = Nat.toDigits 10 n := takeWhile_eq_self_iff.mpr ha
  have hd : (Nat.toDigits 10 n).dropWhile Char.isDigit = [] := dropWhile_eq_nil_iff.mpr ha
  have hz : ¬ ((Nat.toDigits 10 n).head? = some '0' ∧ 1 < (Nat.toDigits 10 n).length) := no_leading_zero n
  unfold whole digits
  rw [ht, hd, if_neg hz, if_neg Nat.toDigits_ne_nil]

theorem token_integer (n : Int) (hr : Stops rest) : token (integer n ++ rest) = some (integer n, rest) := by
  -- nothing follows the digits of an integer
  have hd : ∀ m : Nat, (whole.seq (fraction.seq exponent)) (Nat.toDigits 10 m) = some (Nat.toDigits 10 m, []) := by
    intro m
    refine Part.seq_eq_some.mpr ⟨_, _, [], whole_toDigits m, rfl, ?_⟩
    rw [append_nil]
  have hw : token (integer n) = some (integer n, []) := by
    cases n with
    | ofNat m =>
      obtain ⟨c, s, hcs⟩ := exists_cons_of_ne_nil (@Nat.toDigits_ne_nil m 10)
      have hc : c ≠ '-' := by
        have hdi : c.isDigit = true := isDigit_toDigits (hcs ▸ mem_cons_self)
        rintro rfl
        exact absurd hdi (by decide)
      refine Part.seq_eq_some.mpr ⟨[], integer (.ofNat m), _, ?_, hd m, rfl⟩
      simp only [integer]
      rw [hcs]
      exact if_neg (by simpa using hc)
    | negSucc m => exact Part.seq_eq_some.mpr ⟨['-'], Nat.toDigits 10 (m + 1), _, rfl, hd (m + 1), rfl⟩
  exact token_steady.append hw fun _ => hr

theorem integerOf_integer (n : Int) : integerOf (integer n) = some n := by
  have hr := number_integer n stops_nil.noDigit
  rw [append_nil] at hr
  rw [integerOf, hr]
  exact if_pos rfl

theorem literal_starts (l : Literal) : ∃ c s, l.text = c :: s ∧ (c = '-' ∨ c.isDigit = true) := by
  obtain ⟨l1, r1, l2, hs, hr, -⟩ := Part.seq_eq_some.mp l.isWhole
  obtain ⟨_, _, _, hw, -, -⟩ := Part.seq_eq_some.mp hr
  cases ht : l.text with
  | nil =>
    rw [ht] at hs
    obtain ⟨-, rfl⟩ := Prod.mk.inj (some.inj hs)
    cases hw
  | cons c s =>
    refine ⟨c, s, rfl, ?_⟩
    by_cases hc : c = '-'
    · exact .inl hc
    right
    rw [ht, sign, Part.optional, if_neg (by simpa using hc)] at hs
    obtain ⟨-, rfl⟩ := Prod.mk.inj (some.inj hs)
    by_contra hdigit
    simp [whole, digits, hdigit] at hw

end Mossward.Json

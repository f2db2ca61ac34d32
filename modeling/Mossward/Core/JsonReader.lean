import Mathlib.Data.String.Basic
import Mossward.Core.Json
import Mossward.Core.SortedMap

/-!
# Reading values into records

How Go's `encoding/json` reads a value into a variable that already holds one,
as it does for a member that occurs twice: `null` leaves a scalar and clears
what has a nil value, an array overwrites a slice element by element, an object
adds to a map, and a record takes its members one after the other, each under
the field whose name is the same up to case. Read without a type, an object
keeps the last of several members of one name, and it is written in the order
of the names (`Value.canonical`).

Results:
* `readRecord_eq_some`: a record is read field by field, each from the values that
  its members give it.
* `readRecord_canonical`.
-/
namespace Mossward.Json

open Table Value List

/-! ## Canonical values -/

mutual

/-- What is written after reading without a type. -/
def Value.canonical : Value → Value
  | .arr items => .arr (canonicalItems items)
  | .obj members => .obj (SortedMap.empty.insertAll (canonicalMembers members)).entries
  | .null => .null
  | .bool b => .bool b
  | .num n => .num n
  | .literal l => .literal l
  | .str s => .str s

def canonicalItems : List Value → List Value
  | [] => []
  | v :: vs => v.canonical :: canonicalItems vs

def canonicalMembers : List (String × Value) → List (String × Value)
  | [] => []
  | (name, v) :: ms => (name, v.canonical) :: canonicalMembers ms

end

theorem canonicalItems_eq (vs : List Value) : canonicalItems vs = vs.map canonical := by
  induction vs with
  | nil => rfl
  | cons v vs ih => rw [canonicalItems, ih, map_cons]

theorem canonicalMembers_eq (ms : List (String × Value)) :
    canonicalMembers ms = ms.map fun m => (m.1, m.2.canonical) := by
  induction ms with
  | nil => rfl
  | cons m ms ih => rw [canonicalMembers, ih, map_cons]

/-- The members that are written for an object. -/
def canonicalEntries (ms : List (String × Value)) : List (String × Value) :=
  (SortedMap.empty.insertAll (canonicalMembers ms)).entries

theorem canonical_obj (ms : List (String × Value)) : (obj ms).canonical = .obj (canonicalEntries ms) := rfl

theorem mem_canonicalEntries {ms : List (String × Value)} {e : String × Value} (h : e ∈ canonicalEntries ms) :
    ∃ m ∈ ms, e = (m.1, m.2.canonical) := by
  have he := (SortedMap.mem_of_mem_insertAll h).resolve_left (by simp [SortedMap.empty])
  rw [canonicalMembers_eq] at he
  obtain ⟨m, hm, rfl⟩ := mem_map.mp he
  exact ⟨m, hm, rfl⟩

theorem canonicalEntries_names {ms : List (String × Value)} {name : String} :
    name ∈ (canonicalEntries ms).map Prod.fst ↔ name ∈ ms.map Prod.fst := by
  rw [canonicalEntries, SortedMap.mem_keys_insertAll, canonicalMembers_eq, map_map]
  simp [SortedMap.empty]

/-- The induction is on the nesting. -/
theorem canonical_depth {n : Nat} {v : Value} (h : v.depth ≤ n) : v.canonical.depth ≤ n := by
  induction n generalizing v with
  | zero =>
    cases v with
    | arr items => simp [depth] at h
    | obj mems => simp [depth] at h
    | _ => exact h
  | succ n ih =>
    cases v with
    | arr items =>
      rw [depth, Nat.add_le_add_iff_right, itemsDepth_le_iff] at h
      rw [canonical, depth, Nat.add_le_add_iff_right, itemsDepth_le_iff, canonicalItems_eq]
      intro w hw
      obtain ⟨v, hv, rfl⟩ := mem_map.mp hw
      exact ih (h v hv)
    | obj mems =>
      rw [depth, Nat.add_le_add_iff_right, membersDepth_le_iff] at h
      rw [canonical_obj, depth, Nat.add_le_add_iff_right, membersDepth_le_iff]
      intro e he
      obtain ⟨m, hm, rfl⟩ := mem_canonicalEntries he
      exact ih (h m hm)
    | _ => exact h

/-! ## Readers -/

/-- Reads a value over an old one. -/
abbrev Reader (α : Type) : Type := α → Value → Option α

def readBool : Reader Bool
  | old, .null => some old
  | _, .bool b => some b
  | _, _ => none

def readText : Reader String
  | old, .null => some old
  | _, .str s => some s
  | _, _ => none

/-- A 64-bit integer. -/
def readInt : Reader Int
  | old, .null => some old
  | _, .num n => if -2 ^ 63 ≤ n ∧ n < 2 ^ 63 then some n else none
  | _, .literal l => if l.text = ['-', '0'] then some 0 else none
  | _, _ => none

section
variable {α : Type} (zero : α) (r : Reader α)

def readPointer : Reader (Option α)
  | _, .null => some none
  | old, v => (r (old.getD zero) v).map some

/-- A slice with what its array holds behind it. A later value that is longer
is read over that. -/
structure Slice (α : Type) where
  isNil : Bool
  items : List α
  beyond : List α
deriving DecidableEq

def Slice.nil : Slice α := ⟨true, [], []⟩

/-- One element after the other, over the old ones. -/
def readItems : List α → List Value → Option (List α)
  | _, [] => some []
  | old, v :: vs =>
    match r (old.headD zero) v with
    | none => none
    | some x => (readItems old.tail vs).map (x :: ·)

def readSlice : Reader (Slice α)
  | _, .null => some Slice.nil
  | _, .arr [] => some ⟨false, [], []⟩
  | old, .arr items => (readItems zero r (old.items ++ old.beyond) items).map fun xs =>
    ⟨false, xs, (old.items ++ old.beyond).drop items.length⟩
  | _, _ => none

/-- One entry of a map, read over the zero value. -/
def readEntry (m : Option (SortedMap String α)) (member : String × Value) : Option (SortedMap String α) :=
  m.bind fun m => (r zero member.2).map fun x => m.insert member.1 x

/-- A map; `none` is the nil map. -/
def readMap : Reader (Option (SortedMap String α))
  | _, .null => some none
  | old, .obj members => (members.foldl (readEntry zero r) (some (old.getD .empty))).map some
  | _, _ => none

end

/-! ## Records -/

section
variable {σ α β : Type}

/-- A field of a record: its name, and how a value is read into it. -/
structure RecordField (σ : Type) where
  name : String
  read : σ → Value → Option σ
  /-- the zero record with this field of another one -/
  only : σ → σ

def fieldOf (zero : σ) (name : String) (get : σ → α) (set : σ → α → σ) (r : Reader α) : RecordField σ where
  name := name
  read s v := (r (get s) v).map (set s)
  only s := set zero (get s)

/-- The field that a name stands for. -/
def fieldFor (fields : List (RecordField σ)) (name : String) : Option (RecordField σ) :=
  fields.find? fun f => foldName f.name = foldName name

def readMember (fields : List (RecordField σ)) (s : Option σ) (member : String × Value) : Option σ :=
  s.bind fun s => (fieldFor fields member.1).bind fun f => f.read s member.2

def readRecord (fields : List (RecordField σ)) : Reader σ
  | old, .null => some old
  | old, .obj members => members.foldl (readMember fields) (some old)
  | _, _ => none

end

/-! ## Readers and canonical values -/

/-- Reads the same from a value and from its canonical form, and the same again
over what was read. -/
structure Reader.Invariant {α : Type} (r : Reader α) : Prop where
  canonical : ∀ old v, r old v.canonical = r old v
  again : ∀ old v x, r old v = some x → r x v = some x

/-- If the value is an object, no name in it has two values. -/
def Value.Settled (v : Value) : Prop :=
  ∀ members, v = .obj members → ∀ a ∈ members, ∀ b ∈ members, a.1 = b.1 → a.2.canonical = b.2.canonical

/-- The same for settled values. -/
structure Reader.Agrees {α : Type} (r : Reader α) : Prop where
  canonical : ∀ old (v : Value), v.Settled → r old v.canonical = r old v
  again : ∀ old (v : Value) x, v.Settled → r old v = some x → r x v = some x

theorem Reader.Invariant.agrees {α : Type} {r : Reader α} (h : r.Invariant) : r.Agrees :=
  ⟨fun old v _ => h.canonical old v, fun old v x _ => h.again old v x⟩

theorem readBool_invariant : readBool.Invariant where
  canonical old v := by cases v <;> rfl
  again old v x h := by
    cases v with
    | null => rfl
    | bool b => exact h
    | _ => cases h

theorem readText_invariant : readText.Invariant where
  canonical old v := by cases v <;> rfl
  again old v x h := by
    cases v with
    | null => rfl
    | str s => exact h
    | _ => cases h

theorem readInt_invariant : readInt.Invariant where
  canonical old v := by cases v <;> rfl
  again old v x h := by
    cases v with
    | null => rfl
    | num n => exact h
    | literal l => exact h
    | _ => cases h

section
variable {α : Type} {zero : α} {r : Reader α}

theorem readPointer_invariant (hr : r.Invariant) : (readPointer zero r).Invariant where
  canonical old v := by
    have hre : (r (old.getD zero) v.canonical).map some = (r (old.getD zero) v).map some := by
      rw [hr.canonical]
    cases v with
    | arr items => exact hre
    | obj mems => exact hre
    | _ => rfl
  again old v x h := by
    have hre : (r (old.getD zero) v).map some = some x → (r (x.getD zero) v).map some = some x := by
      intro hx
      obtain ⟨y, hy, rfl⟩ := Option.map_eq_some_iff.mp hx
      rw [Option.getD_some, hr.again _ _ _ hy]
      rfl
    cases v with
    | null => exact h
    | _ => exact hre h

theorem readItems_canonical (hr : r.Invariant) (old : List α) (vs : List Value) :
    readItems zero r old (canonicalItems vs) = readItems zero r old vs := by
  induction vs generalizing old with
  | nil => rfl
  | cons v vs ih =>
    rw [canonicalItems, readItems, readItems, hr.canonical, ih]

theorem readItems_again (hr : r.Invariant) {old xs : List α} {vs : List Value}
    (h : readItems zero r old vs = some xs) (rest : List α) :
    readItems zero r (xs ++ rest) vs = some xs ∧ xs.length = vs.length := by
  induction vs generalizing old xs with
  | nil =>
    cases h
    exact ⟨rfl, rfl⟩
  | cons v vs ih =>
    rw [readItems] at h
    split at h
    · cases h
    · rename_i x hx
      obtain ⟨ys, hys, rfl⟩ := Option.map_eq_some_iff.mp h
      obtain ⟨hi, hl⟩ := ih hys
      refine ⟨?_, by simp [hl]⟩
      simp only [readItems, cons_append, headD_cons, tail_cons, hr.again _ _ _ hx, hi, Option.map_some]

theorem readSlice_invariant (hr : r.Invariant) : (readSlice zero r).Invariant where
  canonical old v := by
    cases v with
    | arr items =>
      cases items with
      | nil => rfl
      | cons v vs =>
        have hi := @readItems_canonical _ zero r hr (old.items ++ old.beyond) (v :: vs)
        have hl : (canonicalItems (v :: vs)).length = (v :: vs).length := by
          rw [canonicalItems_eq, length_map]
        rw [canonical]
        rw [canonicalItems] at hi hl ⊢
        rw [readSlice, readSlice, hi, hl]
        · simp
        · simp
    | _ => rfl
  again old v x h := by
    cases v with
    | null => exact h
    | arr items =>
      cases items with
      | nil => exact h
      | cons v vs =>
        obtain ⟨xs, hxs, rfl⟩ := Option.map_eq_some_iff.mp h
        obtain ⟨hi, hl⟩ := readItems_again hr hxs ((old.items ++ old.beyond).drop (v :: vs).length)
        show (readItems zero r (xs ++ _) (v :: vs)).map _ = _
        rw [hi, ← hl, Option.map_some]
        simp only [drop_left]
    | _ => cases h

end

/-! ### Maps -/

/-- Of operations that commute and do nothing the second time, it only matters
which ones there are. -/
theorem foldl_eq_of_mem_iff {α β : Type} {op : β → α → β} {xs ys : List α}
    (hc : ∀ a ∈ xs, ∀ b ∈ xs, ∀ s, op (op s a) b = op (op s b) a) (hi : ∀ a ∈ xs, ∀ s, op (op s a) a = op s a)
    (h : ∀ a, a ∈ xs ↔ a ∈ ys) (s : β) : xs.foldl op s = ys.foldl op s := by
  classical
  have hd : ∀ zs : List α, (∀ a ∈ zs, a ∈ xs) → ∀ s, zs.dedup.foldl op s = zs.foldl op s := by
    intro zs
    induction zs with
    | nil => exact fun _ _ => rfl
    | cons a zs ih =>
      intro hz s
      obtain ⟨ha, hz⟩ := forall_mem_cons.mp hz
      by_cases hm : a ∈ zs
      · obtain ⟨l, l', rfl⟩ := append_of_mem hm
        have hp : (l ++ a :: l').foldl op s = (a :: (l ++ l')).foldl op s :=
          perm_middle.foldl_eq' (fun x hx y hy => hc x (hz x hx) y (hz y hy)) s
        have hp' : (l ++ a :: l').foldl op (op s a) = (a :: (l ++ l')).foldl op (op s a) :=
          perm_middle.foldl_eq' (fun x hx y hy => hc x (hz x hx) y (hz y hy)) _
        rw [dedup_cons_of_mem hm, ih hz, foldl_cons, hp, hp', foldl_cons, foldl_cons, hi a ha]
      · rw [dedup_cons_of_notMem hm, foldl_cons, foldl_cons, ih hz]
  rw [← hd xs (fun _ => id), ← hd ys fun a ha => (h a).mpr ha]
  apply Perm.foldl_eq'
  · exact (perm_ext_iff_of_nodup (nodup_dedup _) (nodup_dedup _)).mpr fun a => by rw [mem_dedup, mem_dedup, h]
  · exact fun a ha b hb => hc a (mem_dedup.mp ha) b (mem_dedup.mp hb)

section
variable {α : Type} {zero : α} {r : Reader α}

theorem readEntry_comm {a b : String × Value} (h : a.1 = b.1 → a = b) (m : Option (SortedMap String α)) :
    readEntry zero r (readEntry zero r m a) b = readEntry zero r (readEntry zero r m b) a := by
  by_cases hab : a.1 = b.1
  · rw [h hab]
  unfold readEntry
  cases m with
  | none => rfl
  | some m =>
    cases ha : r zero a.2 with
    | none => cases hb : r zero b.2 <;> simp
    | some x =>
      cases hb : r zero b.2 with
      | none => simp
      | some y => simp [SortedMap.insert_comm m hab]

theorem readEntry_again (m : Option (SortedMap String α)) (a : String × Value) :
    readEntry zero r (readEntry zero r m a) a = readEntry zero r m a := by
  unfold readEntry
  cases m with
  | none => rfl
  | some m =>
    cases ha : r zero a.2 with
    | none => rfl
    | some x => simp [SortedMap.insert_insert]

theorem foldl_readEntry (hr : r.Invariant) (mems : List (String × Value)) (m : Option (SortedMap String α)) :
    mems.foldl (readEntry zero r) m = (canonicalMembers mems).foldl (readEntry zero r) m := by
  rw [canonicalMembers_eq, foldl_map]
  congr 1
  funext m e
  unfold readEntry
  rw [hr.canonical]

theorem readMap_agrees (hr : r.Invariant) : (readMap zero r).Agrees := by
  have hone : ∀ {mems : List (String × Value)}, (obj mems).Settled →
      ∀ a ∈ canonicalMembers mems, ∀ b ∈ canonicalMembers mems, a.1 = b.1 → a = b := by
    intro mems hv a ha b hb hab
    rw [canonicalMembers_eq] at ha hb
    obtain ⟨a, hma, rfl⟩ := mem_map.mp ha
    obtain ⟨b, hmb, rfl⟩ := mem_map.mp hb
    exact Prod.ext hab (hv mems rfl a hma b hmb hab)
  have hfold : ∀ {mems : List (String × Value)}, (obj mems).Settled → ∀ {es : List (String × Value)},
      (∀ e, e ∈ canonicalMembers mems ↔ e ∈ es) → ∀ m,
      (canonicalMembers mems).foldl (readEntry zero r) m = es.foldl (readEntry zero r) m := fun hv _ he m =>
    foldl_eq_of_mem_iff (fun a ha b hb => readEntry_comm (hone hv a ha b hb)) (fun a _ m => readEntry_again m a) he m
  constructor
  · intro old v hv
    cases v with
    | obj mems =>
      rw [canonical_obj, readMap, readMap, foldl_readEntry hr mems, canonicalEntries,
        hfold hv fun e => (SortedMap.mem_insertAll (hone hv)).symm]
    | _ => rfl
  · intro old v x hv h
    cases v with
    | null => exact h
    | obj mems =>
      obtain ⟨m, hm, rfl⟩ := Option.map_eq_some_iff.mp h
      rw [foldl_readEntry hr] at hm
      have htwice : (canonicalMembers mems).foldl (readEntry zero r) (some m) = some m := by
        rw [← hm, ← foldl_append]
        exact (hfold hv (by simp) _).symm
      rw [readMap, Option.getD_some, foldl_readEntry hr, htwice]
      rfl
    | _ => cases h

end

/-! ## Records, field by field -/

section
variable {σ α β : Type}

/-- What a field reads depends on the field alone, and its reader agrees. -/
structure RecordField.Lawful (zero : σ) (f : RecordField σ) : Prop where
  own : ∀ s v, f.read (f.only s) v = (f.read s v).map f.only
  start : f.only zero = zero
  canonical : ∀ s (v : Value), v.Settled → f.read s v.canonical = f.read s v
  again : ∀ s (v : Value) s', v.Settled → f.read s v = some s' → f.read s' v = some s'

theorem fieldOf_lawful {zero : σ} {n : String} {get : σ → α} {set : σ → α → σ} {r : Reader α} (hr : r.Agrees)
    (hg : ∀ s x, get (set s x) = x) (hs : ∀ s x y, set (set s x) y = set s y) (hz : set zero (get zero) = zero) :
    (fieldOf zero n get set r).Lawful zero where
  own s v := by
    show (r (get (set zero (get s))) v).map (set (set zero (get s))) =
      ((r (get s) v).map (set s)).map fun s' => set zero (get s')
    rw [hg, Option.map_map]
    congr 1
    funext x
    rw [Function.comp_apply, hg, hs]
  start := hz
  canonical s v hv := by
    show (r (get s) v.canonical).map _ = (r (get s) v).map _
    rw [hr.canonical _ v hv]
  again s v s' hv h := by
    obtain ⟨x, hx, rfl⟩ := Option.map_eq_some_iff.mp h
    show (r (get (set s x)) v).map _ = _
    rw [hg, hr.again _ v x hv hx, Option.map_some, hs]

/-- Neither of two fields touches the other. -/
structure RecordField.Apart (f g : RecordField σ) : Prop where
  right : ∀ s v s', f.read s v = some s' → g.only s' = g.only s
  left : ∀ s v s', g.read s v = some s' → f.only s' = f.only s

instance : Std.Symm (RecordField.Apart (σ := σ)) where
  symm _ _ h := ⟨h.left, h.right⟩

theorem fieldOf_apart {zero : σ} {n m : String} {get : σ → α} {set : σ → α → σ} {r : Reader α} {get' : σ → β}
    {set' : σ → β → σ} {r' : Reader β} (hg : ∀ s y, get (set' s y) = get s) (hg' : ∀ s x, get' (set s x) = get' s) :
    (fieldOf zero n get set r).Apart (fieldOf zero m get' set' r') := by
  constructor
  · intro s v s' h
    obtain ⟨x, -, rfl⟩ := Option.map_eq_some_iff.mp h
    exact congrArg (set' zero) (hg' s x)
  · intro s v s' h
    obtain ⟨y, -, rfl⟩ := Option.map_eq_some_iff.mp h
    exact congrArg (set zero) (hg s y)

/-- What a record is read by: fields with different names that do not touch one
another and make up the record. -/
structure Schema (zero : σ) (fields : List (RecordField σ)) : Prop where
  names : DistinctNames (fields.map (·.name))
  apart : fields.Pairwise RecordField.Apart
  lawful : ∀ f ∈ fields, f.Lawful zero
  ext : ∀ s s', (∀ f ∈ fields, f.only s = f.only s') → s = s'

/-- The values that members give to the field of a name. -/
def given (name : String) (members : List (String × Value)) : List Value :=
  (members.filter fun m => foldName m.1 = foldName name).map Prod.snd

/-- One value after the other. -/
def RecordField.readAll (f : RecordField σ) (s : σ) (vs : List Value) : Option σ := vs.foldlM f.read s

/-- Every member stands for a field. -/
def Known (fields : List (RecordField σ)) (members : List (String × Value)) : Prop :=
  ∀ m ∈ members, (fieldFor fields m.1).isSome

variable {zero : σ} {fields : List (RecordField σ)} {mems : List (String × Value)}

theorem fieldFor_mem {name : String} {f : RecordField σ} (h : fieldFor fields name = some f) :
    f ∈ fields ∧ foldName f.name = foldName name :=
  ⟨mem_of_find?_eq_some h, by simpa using find?_some h⟩

theorem Schema.field_inj (h : Schema zero fields) {f g : RecordField σ} (hf : f ∈ fields) (hg : g ∈ fields)
    (hn : foldName f.name = foldName g.name) : f = g := by
  have hnodup : (fields.map fun f => foldName f.name).Nodup := by
    have hp := h.names
    rw [DistinctNames, pairwise_map] at hp
    exact pairwise_map.mpr hp
  exact inj_on_of_nodup_map hnodup hf hg hn

theorem foldl_readMember_none : mems.foldl (readMember fields) none = none := by
  induction mems with
  | nil => rfl
  | cons m mems ih => exact ih

/-- **A record is read field by field.** -/
theorem readRecord_eq_some (h : Schema zero fields) {s s' : σ} : readRecord fields s (.obj mems) = some s' ↔
    Known fields mems ∧ ∀ f ∈ fields, f.readAll (f.only s) (given f.name mems) = some (f.only s') := by
  show mems.foldl (readMember fields) (some s) = some s' ↔ _
  induction mems generalizing s with
  | nil =>
    simp only [foldl_nil, Known, given, RecordField.readAll, Option.some.injEq]
    constructor
    · rintro rfl
      simp
    · intro hall
      exact h.ext s s' fun f hf => Option.some.inj (hall.2 f hf)
  | cons m mems ih =>
    rw [foldl_cons, Known, forall_mem_cons]
    cases hm : fieldFor fields m.1 with
    | none =>
      have hn : readMember fields (some s) m = none := by simp [readMember, hm]
      rw [hn, foldl_readMember_none]
      simp
    | some f =>
      obtain ⟨hf, hfn⟩ := fieldFor_mem hm
      have hr : readMember fields (some s) m = f.read s m.2 := by simp [readMember, hm]
      -- the values of this field begin with that of the member, those of others are unchanged
      have hgf : given f.name (m :: mems) = m.2 :: given f.name mems := by
        simp [given, hfn]
      have hgg : ∀ g ∈ fields, g ≠ f → given g.name (m :: mems) = given g.name mems := by
        intro g hg hne
        have hnm : foldName m.1 ≠ foldName g.name := by
          intro he
          rw [← hfn] at he
          exact hne (h.field_inj hg hf he.symm)
        simp [given, hnm]
      have hown := (h.lawful f hf).own s m.2
      rw [hr]
      cases hrd : f.read s m.2 with
      | none =>
        rw [foldl_readMember_none]
        rw [hrd] at hown
        simp only [reduceCtorEq, false_iff, not_and, not_forall]
        intro _
        refine ⟨f, hf, ?_⟩
        rw [hgf, RecordField.readAll, foldlM_cons, hown]
        simp
      | some s1 =>
        rw [hrd] at hown
        rw [ih]
        simp only [Option.isSome_some, true_and, Known]
        refine and_congr_right fun _ => forall₂_congr fun g hg => ?_
        by_cases hgf' : g = f
        · subst hgf'
          rw [hgf, RecordField.readAll, RecordField.readAll, foldlM_cons, hown]
          rfl
        · rw [hgg g hg hgf', (h.apart.forall hf hg (Ne.symm hgf')).right s m.2 s1 hrd]

/-! ## Records and canonical values -/

theorem known_canonicalEntries : Known fields (canonicalEntries mems) ↔ Known fields mems := by
  have hn : ∀ ms : List (String × Value), Known fields ms ↔
      ∀ name ∈ ms.map Prod.fst, (fieldFor fields name).isSome := by
    simp [Known]
  rw [hn, hn]
  exact forall_congr' fun name => by rw [canonicalEntries_names]

/-- The members for one field give it one value, and that is settled; or nothing is
read, since some member stands for no field. -/
def Aligned (fields : List (RecordField σ)) (members : List (String × Value)) : Prop :=
  Known fields members → ∀ a ∈ members, a.2.Settled ∧
    ∀ b ∈ members, foldName a.1 = foldName b.1 → a.2.canonical = b.2.canonical

theorem readAll_same {f : RecordField σ} {c : Value} (hagain : ∀ s s', f.read s c = some s' → f.read s' c = some s')
    {vs : List Value} (hne : vs ≠ []) (hsame : ∀ v ∈ vs, ∀ s, f.read s v = f.read s c) (s : σ) :
    f.readAll s vs = f.read s c := by
  induction vs generalizing s with
  | nil => exact absurd rfl hne
  | cons v vs ih =>
    obtain ⟨hv, hvs⟩ := forall_mem_cons.mp hsame
    rw [RecordField.readAll, foldlM_cons, hv]
    cases hr : f.read s c with
    | none => rfl
    | some s' =>
      by_cases hn : vs = []
      · subst hn
        rfl
      · exact (ih hn hvs s').trans (hagain s s' hr)

theorem readAll_canonical (h : Schema zero fields) (hk : Known fields mems) (ha : Aligned fields mems)
    {f : RecordField σ} (hf : f ∈ fields) (s : σ) :
    f.readAll s (given f.name (canonicalEntries mems)) = f.readAll s (given f.name mems) := by
  have hl := h.lawful f hf
  have hmem : ∀ {ms : List (String × Value)} {v}, v ∈ given f.name ms ↔
      ∃ m ∈ ms, foldName m.1 = foldName f.name ∧ m.2 = v := by
    simp [given, and_assoc]
  by_cases hnil : given f.name mems = []
  · have hnil' : given f.name (canonicalEntries mems) = [] := by
      rw [eq_nil_iff_forall_not_mem] at hnil ⊢
      intro v hv
      obtain ⟨e, he, hn, -⟩ := hmem.mp hv
      obtain ⟨m, hm, rfl⟩ := mem_canonicalEntries he
      exact hnil m.2 (hmem.mpr ⟨m, hm, hn, rfl⟩)
    rw [hnil, hnil']
  obtain ⟨_, hv0⟩ := exists_mem_of_ne_nil _ hnil
  obtain ⟨m0, hm0, hn0, rfl⟩ := hmem.mp hv0
  have hs0 := (ha hk m0 hm0).1
  have hagain : ∀ s s', f.read s m0.2.canonical = some s' → f.read s' m0.2.canonical = some s' := by
    intro s s' hr
    rw [hl.canonical _ _ hs0] at hr ⊢
    exact hl.again s _ s' hs0 hr
  have hone : ∀ m ∈ mems, foldName m.1 = foldName f.name → m.2.canonical = m0.2.canonical := fun m hm hn =>
    (ha hk m hm).2 m0 hm0 (hn.trans hn0.symm)
  obtain ⟨e0, he0, hne0⟩ := mem_map.mp (canonicalEntries_names.mpr (mem_map_of_mem hm0))
  rw [readAll_same hagain (ne_nil_of_mem (hmem.mpr ⟨e0, he0, by rw [hne0, hn0], rfl⟩)),
    readAll_same hagain hnil]
  · intro v hv s
    obtain ⟨m, hm, hn, rfl⟩ := hmem.mp hv
    rw [← hl.canonical s m.2 (ha hk m hm).1, hone m hm hn]
  · intro v hv s
    obtain ⟨e, he, hn, rfl⟩ := hmem.mp hv
    obtain ⟨m, hm, rfl⟩ := mem_canonicalEntries he
    rw [hone m hm hn]

/-- **Result.** The canonical form of members that give every field one value reads
the same. -/
theorem readRecord_canonical (h : Schema zero fields) (ha : Aligned fields mems) (s : σ) :
    readRecord fields s (obj mems).canonical = readRecord fields s (.obj mems) := by
  rw [canonical_obj]
  refine Option.ext fun s' => ?_
  rw [readRecord_eq_some h, readRecord_eq_some h, known_canonicalEntries]
  refine and_congr_right fun hk => forall₂_congr fun f hf => ?_
  rw [readAll_canonical h hk ha hf]

end

end Mossward.Json

/-
Functions that read bytes at positions, as Rust has them: a `?` may end one
without a result, and an index outside its slice panics.
-/
import BigRocket.Lib.ByteBuffer
import BigRocket.Lib.Slice

namespace BigRocket.Lib

open List

inductive Read (α : Type) where
  | got (a : α)
  | nothing
  | outOfBounds
  deriving DecidableEq, Repr

namespace Read

variable {α β : Type}

protected def bind : Read α → (α → Read β) → Read β
  | .got a, f => f a
  | .nothing, _ => .nothing
  | .outOfBounds, _ => .outOfBounds

instance : Monad Read where
  pure := .got
  bind := Read.bind

def ofOption : Option α → Read α
  | some a => .got a
  | none => .nothing

def require (p : Prop) [Decidable p] : Read Unit := if p then .got () else .nothing

def get (xs : List α) (i : Nat) : Read α := ofOption xs[i]?

def index (xs : List α) (i : Nat) : Read α :=
  match xs[i]? with
  | some a => .got a
  | none => .outOfBounds

def indexRange (xs : List α) (start stop : Nat) : Read (List α) :=
  match slice xs start stop with
  | some part => .got part
  | none => .outOfBounds

/-- The number in `buf[pos]` and the bytes behind it, big-endian. -/
def indexBe (w : Nat) (buf : List UInt8) (pos : Nat) : Read Nat := do
  let bytes ← indexRange buf pos (pos + w)
  return beNat bytes

/-! ## Results -/

variable {x : Read α} {f : α → Read β} {xs part : List α} {a : α} {i start stop : Nat}

theorem bind_eq_got {b : β} : (x >>= f) = .got b ↔ ∃ a, x = .got a ∧ f a = .got b := by
  cases x with
  | got a => exact ⟨fun h => ⟨a, rfl, h⟩, fun ⟨_, ha, h⟩ => got.inj ha ▸ h⟩
  | nothing => exact iff_of_false nofun nofun
  | outOfBounds => exact iff_of_false nofun nofun

theorem pure_eq_got {b : α} : (pure a : Read α) = .got b ↔ a = b := ⟨got.inj, congrArg got⟩

@[simp] theorem got_bind (a : α) (f : α → Read β) : (Read.got a >>= f) = f a := rfl

theorem require_pos {p : Prop} [Decidable p] (h : p) : require p = .got () := if_pos h

theorem require_eq_got {p : Prop} [Decidable p] {u : Unit} : require p = .got u ↔ p := by
  unfold require
  split
  · next h => exact iff_of_true rfl h
  · next h => exact iff_of_false nofun h

theorem get_eq_got : get xs i = .got a ↔ xs[i]? = some a := by
  unfold get ofOption
  cases xs[i]? <;> simp

theorem index_eq_got : index xs i = .got a ↔ xs[i]? = some a := by
  unfold index
  cases xs[i]? <;> simp

/-! ## Indices -/

def Safe (x : Read α) : Prop := x ≠ .outOfBounds

theorem safe_got : Safe (.got a) := nofun

theorem safe_nothing : Safe (.nothing : Read α) := nofun

theorem safe_bind (h : Safe x) (hf : ∀ a, x = .got a → Safe (f a)) : Safe (x >>= f) := by
  cases x with
  | got a => exact hf a rfl
  | nothing => exact safe_nothing
  | outOfBounds => exact absurd rfl h

theorem safe_ofOption (o : Option α) : Safe (ofOption o) := by
  cases o
  · exact safe_nothing
  · exact safe_got

theorem safe_require (p : Prop) [Decidable p] : Safe (require p) := by
  unfold require
  split
  · exact safe_got
  · exact safe_nothing

theorem safe_index (h : i < xs.length) : Safe (index xs i) := by
  rw [index, getElem?_eq_getElem h]
  exact safe_got

theorem safe_indexRange (h : start ≤ stop) (h' : stop ≤ xs.length) :
    Safe (indexRange xs start stop) := by
  rw [indexRange, slice, if_pos ⟨h, h'⟩]
  exact safe_got

theorem safe_indexBe {w : Nat} {buf : List UInt8} (h : i + w ≤ buf.length) :
    Safe (indexBe w buf i) :=
  safe_bind (safe_indexRange (Nat.le_add_right _ _) h) fun _ _ => safe_got

end Read

/-! ## Windows -/

section Window

variable {α : Type} {xs a b : List α} {base : Nat}

theorem window_append :
    Window base (a ++ b) xs ↔ Window base a xs ∧ Window (base + a.length) b xs := by
  constructor
  · rintro ⟨⟨after, hafter⟩, hbase⟩
    rw [append_assoc] at hafter
    have hlength := congrArg List.length hafter
    simp only [length_append, length_drop] at hlength
    refine ⟨⟨⟨b ++ after, hafter⟩, hbase⟩, ⟨after, ?_⟩, by omega⟩
    rw [← drop_drop, ← hafter, drop_left]
  · rintro ⟨⟨⟨after, hafter⟩, hbase⟩, ⟨after', hafter'⟩, -⟩
    refine ⟨⟨after', ?_⟩, hbase⟩
    rw [← drop_drop, ← hafter, drop_left] at hafter'
    rw [append_assoc, hafter', hafter]

theorem window_singleton {c : α} : Window base [c] xs ↔ xs[base]? = some c := by
  constructor
  · intro h
    exact h.getElem? (i := 0) rfl
  · intro h
    obtain ⟨hlt, heq⟩ := List.getElem?_eq_some_iff.mp h
    refine ⟨⟨xs.drop (base + 1), ?_⟩, hlt.le⟩
    rw [drop_eq_getElem_cons hlt, heq, singleton_append]

theorem window_cons {c : α} :
    Window base (c :: b) xs ↔ xs[base]? = some c ∧ Window (base + 1) b xs := by
  rw [← singleton_append, window_append, window_singleton, length_singleton]

theorem window_nil : Window base ([] : List α) xs ↔ base ≤ xs.length := by simp [Window]

theorem exists_window {n : Nat} (h : base + n ≤ xs.length) :
    ∃ part, part.length = n ∧ Window base part xs := by
  refine ⟨(xs.drop base).take n, ?_, take_prefix _ _, by omega⟩
  rw [length_take, length_drop]
  omega

theorem slice_eq_some_iff {stop : Nat} :
    slice xs base stop = some a ↔ Window base a xs ∧ stop = base + a.length := by
  constructor
  · intro h
    obtain ⟨hwindow, hlength, hstop⟩ := window_of_slice h
    refine ⟨hwindow, ?_⟩
    unfold slice at h
    split at h
    · omega
    · cases h
  · rintro ⟨hwindow, rfl⟩
    rw [slice, if_pos ⟨Nat.le_add_right _ _, hwindow.length_le⟩, Nat.add_sub_cancel_left,
      hwindow.take_drop]

theorem indexRange_eq_got {stop : Nat} :
    Read.indexRange xs base stop = .got a ↔ Window base a xs ∧ stop = base + a.length := by
  rw [← slice_eq_some_iff, Read.indexRange]
  cases slice xs base stop <;> simp

theorem indexBe_eq_got {w n : Nat} {buf : List UInt8} :
    Read.indexBe w buf base = .got n ↔ Window base (beBytes w n) buf ∧ n < 256 ^ w := by
  simp only [Read.indexBe, Read.bind_eq_got, Read.pure_eq_got, indexRange_eq_got,
    Nat.add_left_cancel_iff]
  constructor
  · rintro ⟨bs, ⟨hwindow, rfl⟩, rfl⟩
    exact ⟨(beBytes_beNat bs).symm ▸ hwindow, beNat_lt bs⟩
  · rintro ⟨hwindow, hlt⟩
    exact ⟨_, ⟨hwindow, (length_beBytes w n).symm⟩, by rw [beNat_beBytes, Nat.mod_eq_of_lt hlt]⟩

end Window

end BigRocket.Lib

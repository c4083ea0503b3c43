/-
Reading items out of a stream that arrives in chunks: a reader that finds
nothing in a proper beginning of an item does not see how the stream was cut.
-/
import Mathlib

namespace BigRocket.Lib

open List

variable {α β : Type}

/-! ## Draining -/

/-- Take items until there is none. Each item costs a byte, so as many
rounds as there are bytes are enough. -/
def drainFuel (next : List β → Option (α × List β)) : Nat → List β → List α × List β
  | 0, buf => ([], buf)
  | fuel + 1, buf =>
    match next buf with
    | none => ([], buf)
    | some (item, rest) =>
      let (items, left) := drainFuel next fuel rest
      (item :: items, left)

def drain (next : List β → Option (α × List β)) (buf : List β) : List α × List β :=
  drainFuel next buf.length buf

def feed (next : List β → Option (α × List β)) : List β → List (List β) → List α × List β
  | buf, [] => ([], buf)
  | buf, chunk :: chunks =>
    let (items, left) := drain next (buf ++ chunk)
    let (more, last) := feed next left chunks
    (items ++ more, last)

theorem drain_eq (next : List β → Option (α × List β)) (buf : List β) :
    drain next buf = drainFuel next buf.length buf := rfl

/-- The rounds of `drain` are enough for a reader that always takes
something. -/
theorem drainFuel_exhausts {next : List β → Option (α × List β)}
    (hshort : ∀ buf item rest, next buf = some (item, rest) → rest.length < buf.length)
    {fuel : Nat} {buf : List β} (hfuel : buf.length ≤ fuel) :
    next (drainFuel next fuel buf).2 = none := by
  induction fuel generalizing buf with
  | zero =>
    cases hnext : next buf with
    | none => exact hnext
    | some result =>
      have := hshort buf result.1 result.2 hnext
      omega
  | succ fuel ih =>
    cases hnext : next buf with
    | none => simp only [drainFuel, hnext]
    | some result =>
      have hless := hshort buf result.1 result.2 hnext
      simp only [drainFuel, hnext]
      exact ih (by omega)

/-! ## Self-delimiting items -/

theorem prefix_append_cases {a b buf : List β} (h : buf <+: a ++ b) :
    (buf <+: a ∧ buf ≠ a) ∨ ∃ behind, buf = a ++ behind ∧ behind <+: b := by
  obtain ⟨later, hlater⟩ := h
  rcases append_eq_append_iff.mp hlater with ⟨more, hmore, hb⟩ | ⟨behind, hbuf, hb⟩
  · by_cases heq : buf = a
    · exact .inr ⟨[], by rw [heq, append_nil], nil_prefix⟩
    · exact .inl ⟨⟨more, hmore.symm⟩, heq⟩
  · exact .inr ⟨behind, hbuf, ⟨later, hb.symm⟩⟩

/-- `next` reads each valid item as `view` says, and nothing from a part of
one. -/
structure SelfDelimiting {γ : Type} (next : List β → Option (α × List β)) (encode : γ → List β)
    (view : γ → α) (Valid : γ → Prop) : Prop where
  whole : ∀ item rest, Valid item → next (encode item ++ rest) = some (view item, rest)
  part : ∀ item buf, Valid item → buf <+: encode item → buf ≠ encode item → next buf = none
  nothing : next [] = none
  nonempty : ∀ item, Valid item → encode item ≠ []

namespace SelfDelimiting

variable {γ : Type} {next : List β → Option (α × List β)} {encode : γ → List β} {view : γ → α}
  {Valid : γ → Prop}

theorem drainFuel_stream (h : SelfDelimiting next encode view Valid) (items : List γ)
    (hvalid : ∀ item ∈ items, Valid item) {buf : List β} {fuel : Nat} (hfuel : buf.length ≤ fuel)
    (hstream : buf <+: (items.map encode).flatten) :
    ∃ done todo, items = done ++ todo ∧
      buf = (done.map encode).flatten ++ (drainFuel next fuel buf).2 ∧
      (drainFuel next fuel buf).1 = done.map view ∧ next (drainFuel next fuel buf).2 = none := by
  -- over the items of the stream; the buffer loses its first one
  induction items generalizing buf fuel with
  | nil =>
    have hnil : buf = [] := prefix_nil.mp hstream
    have hdrain : drainFuel next fuel buf = ([], buf) := by
      cases fuel with
      | zero => rfl
      | succ fuel => rw [drainFuel, hnil, h.nothing]
    rw [hdrain]
    exact ⟨[], [], rfl, rfl, rfl, by rw [hnil]; exact h.nothing⟩
  | cons item rest ih =>
    have hitem := hvalid item mem_cons_self
    rcases prefix_append_cases hstream with ⟨hpart, hne⟩ | ⟨behind, rfl, hbehind⟩
    · have hnext := h.part item buf hitem hpart hne
      have hdrain : drainFuel next fuel buf = ([], buf) := by
        cases fuel with
        | zero => rfl
        | succ fuel => rw [drainFuel, hnext]
      rw [hdrain]
      exact ⟨[], item :: rest, rfl, rfl, rfl, hnext⟩
    · have hpos : 0 < (encode item).length := length_pos_iff.mpr (h.nonempty item hitem)
      rw [length_append] at hfuel
      obtain ⟨fuel, rfl⟩ : ∃ k, fuel = k + 1 := ⟨fuel - 1, by omega⟩
      obtain ⟨done, todo, hitems, hbuf, hdone, hnone⟩ :=
        ih (fun item' hmem => hvalid item' (mem_cons_of_mem item hmem))
          (show behind.length ≤ fuel by omega) hbehind
      have hdrain : drainFuel next (fuel + 1) (encode item ++ behind) =
          (view item :: (drainFuel next fuel behind).1, (drainFuel next fuel behind).2) := by
        rw [drainFuel, h.whole item behind hitem]
      rw [hdrain]
      refine ⟨item :: done, todo, by rw [hitems, cons_append], ?_, ?_, hnone⟩
      · rw [map_cons, flatten_cons, append_assoc, ← hbuf]
      · rw [hdone, map_cons]

variable {items : List γ}

theorem eq_nil_of_next_none (h : SelfDelimiting next encode view Valid)
    (hvalid : ∀ item ∈ items, Valid item) (hnone : next (items.map encode).flatten = none) :
    items = [] := by
  cases items with
  | nil => rfl
  | cons item rest =>
    rw [map_cons, flatten_cons, h.whole item _ (hvalid item mem_cons_self)] at hnone
    cases hnone

theorem feed_stream (h : SelfDelimiting next encode view Valid) (chunks : List (List β))
    (hvalid : ∀ item ∈ items, Valid item) {buf : List β} (hnone : next buf = none)
    (hstream : buf ++ chunks.flatten = (items.map encode).flatten) :
    feed next buf chunks = (items.map view, []) := by
  induction chunks generalizing buf items with
  | nil =>
    rw [flatten_nil, append_nil] at hstream
    have hitems : items = [] := h.eq_nil_of_next_none hvalid (by rw [← hstream]; exact hnone)
    rw [hitems] at hstream ⊢
    rw [hstream]
    rfl
  | cons chunk chunks ih =>
    rw [flatten_cons, ← append_assoc] at hstream
    obtain ⟨done, todo, rfl, hbuf, hdone, hleft⟩ :=
      h.drainFuel_stream items hvalid le_rfl ⟨chunks.flatten, hstream⟩
    rw [← drain_eq] at hbuf hdone hleft
    have hrest : (drain next (buf ++ chunk)).2 ++ chunks.flatten = (todo.map encode).flatten := by
      rw [hbuf, map_append, flatten_append, append_assoc] at hstream
      exact append_cancel_left hstream
    have hmore := ih (fun item hmem => hvalid item (mem_append_right done hmem)) hleft hrest
    simp only [feed, hmore, hdone, map_append]

theorem feed_flatten (h : SelfDelimiting next encode view Valid)
    (hvalid : ∀ item ∈ items, Valid item) {chunks : List (List β)}
    (hcut : chunks.flatten = (items.map encode).flatten) :
    feed next [] chunks = (items.map view, []) :=
  h.feed_stream chunks hvalid h.nothing (by rw [nil_append, hcut])

end SelfDelimiting

end BigRocket.Lib

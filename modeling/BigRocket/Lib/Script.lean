/-
Functions that write as they go and may return early. `Keeps next start script
post`: an automaton `next` in the state `start` takes all writes, and `post`
holds of the value and the state reached.
-/
import Mathlib

namespace BigRocket.Lib

structure Script (ω α : Type) where
  written : List ω
  value : Option α

namespace Script

variable {ω α β σ : Type}

def exit : Script ω α := ⟨[], none⟩

def write (w : ω) : Script ω Unit := ⟨[w], some ()⟩

def tryWrite (ok : Bool) (w : ω) : Script ω Unit := ⟨[w], if ok then some () else none⟩

def ensure (ok : Bool) : Script ω Unit := if ok then ⟨[], some ()⟩ else exit

instance : Monad (Script ω) where
  pure a := ⟨[], some a⟩
  bind x f :=
    match x.value with
    | some a => ⟨x.written ++ (f a).written, (f a).value⟩
    | none => ⟨x.written, none⟩

def writeAll : List ω → Script ω Unit
  | [] => pure ()
  | w :: rest => do
      write w
      writeAll rest

/-! ## Protocols -/

def follow (next : σ → ω → Option σ) : σ → List ω → Option σ
  | s, [] => some s
  | s, w :: rest => (next s w).bind fun s' => follow next s' rest

theorem follow_append (next : σ → ω → Option σ) (s : σ) (front back : List ω) :
    follow next s (front ++ back) =
      (follow next s front).bind fun s' => follow next s' back := by
  induction front generalizing s with
  | nil => rfl
  | cons w rest ih =>
    rw [List.cons_append, follow, follow, Option.bind_assoc]
    exact congrArg _ (funext ih)

def Keeps (next : σ → ω → Option σ) (start : σ) (x : Script ω α) (post : α → σ → Prop) : Prop :=
  ∃ s, follow next start x.written = some s ∧ ∀ a, x.value = some a → post a s

variable {next : σ → ω → Option σ} {start : σ} {post : α → σ → Prop}

theorem keeps_pure {a : α} (h : post a start) : Keeps next start (pure a : Script ω α) post :=
  ⟨start, rfl, fun b hb => by cases hb; exact h⟩

theorem keeps_exit : Keeps next start (exit : Script ω α) post :=
  ⟨start, rfl, fun b hb => by cases hb⟩

theorem keeps_write {w : ω} {s : σ} {post : Unit → σ → Prop} (hnext : next start w = some s)
    (h : post () s) : Keeps next start (write w) post :=
  ⟨s, by simp [write, follow, hnext], fun _ _ => h⟩

theorem keeps_tryWrite {ok : Bool} {w : ω} {s : σ} {post : Unit → σ → Prop}
    (hnext : next start w = some s) (h : ok = true → post () s) :
    Keeps next start (tryWrite ok w) post := by
  refine ⟨s, by simp [tryWrite, follow, hnext], fun _ hvalue => h ?_⟩
  cases ok with
  | true => rfl
  | false => cases hvalue

theorem keeps_ensure {ok : Bool} {post : Unit → σ → Prop} (h : ok = true → post () start) :
    Keeps next start (ensure ok : Script ω Unit) post := by
  cases ok with
  | true => exact keeps_pure (h rfl)
  | false => exact keeps_exit

theorem keeps_bind {x : Script ω α} {f : α → Script ω β} (mid : α → σ → Prop)
    {post : β → σ → Prop} (hx : Keeps next start x mid)
    (hf : ∀ a s, mid a s → Keeps next s (f a) post) : Keeps next start (x >>= f) post := by
  obtain ⟨s, hfollow, hmid⟩ := hx
  cases hvalue : x.value with
  | none =>
    have hbind : x >>= f = ⟨x.written, none⟩ := by
      simp only [bind, hvalue]
    rw [hbind]
    exact ⟨s, hfollow, fun b hb => by cases hb⟩
  | some a =>
    have hbind : x >>= f = ⟨x.written ++ (f a).written, (f a).value⟩ := by
      simp only [bind, hvalue]
    obtain ⟨s', hfollow', hpost⟩ := hf a s (hmid a hvalue)
    rw [hbind]
    refine ⟨s', ?_, hpost⟩
    rw [follow_append, hfollow]
    exact hfollow'

theorem keeps_writeAll {list : List ω} {post : Unit → σ → Prop}
    (hnext : ∀ w ∈ list, next start w = some start) (h : post () start) :
    Keeps next start (writeAll list) post := by
  induction list with
  | nil => exact keeps_pure h
  | cons w rest ih =>
    refine keeps_bind (fun _ s => s = start) (keeps_write (hnext w (by simp)) rfl) ?_
    rintro - s rfl
    exact ih fun v hv => hnext v (List.mem_cons_of_mem w hv)

end Script

end BigRocket.Lib

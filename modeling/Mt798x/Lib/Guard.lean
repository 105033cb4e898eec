import Mathlib

/-!
# Guarded accesses

A program that works on a buffer of a fixed size checks each access against the size and stops at
the first one that ends behind the buffer.  A program is inside its buffer if it does not stop for
that reason.  A loop that is cut off by its fuel stops for another one.
-/

namespace Guard

/-- Why a program stops early. -/
inductive Fault
  | outside
  | endless
deriving DecidableEq, Repr

variable {α β : Type}

/-- An access to bytes of a buffer, the last of them right before `stop`. -/
def touch (size stop : ℕ) : Except Fault Unit :=
  if stop ≤ size then .ok () else .error .outside

/-- No access of the program is outside the buffer. -/
def Inside (x : Except Fault α) : Prop := x ≠ .error .outside

@[simp] lemma inside_ok (a : α) : Inside (.ok a : Except Fault α) := by
  intro h
  cases h

@[simp] lemma inside_pure (a : α) : Inside (pure a : Except Fault α) := inside_ok a

@[simp] lemma inside_endless : Inside (.error .endless : Except Fault α) := by
  intro h
  cases h

/-- A program is inside if its first part is, and the rest on what the first part returns. -/
lemma inside_bind (x : Except Fault α) (f : α → Except Fault β) :
    Inside (x >>= f) ↔ Inside x ∧ ∀ a, x = .ok a → Inside (f a) := by
  cases x with
  | error e => cases e <;> simp [Inside, bind, Except.bind]
  | ok a => simp [Inside, bind, Except.bind]

@[simp] lemma inside_touch (size stop : ℕ) : Inside (touch size stop) ↔ stop ≤ size := by
  rw [touch]
  split
  · simp_all
  · simp_all [Inside]

lemma touch_eq {size stop : ℕ} (h : stop ≤ size) : touch size stop = .ok () := if_pos h

lemma touch_bind (size stop : ℕ) (f : Unit → Except Fault β) :
    (touch size stop >>= f) = if stop ≤ size then f () else .error .outside := by
  rw [touch]
  split
  · rfl
  · rfl

@[simp] lemma inside_touch_bind (size stop : ℕ) (f : Unit → Except Fault β) :
    Inside (touch size stop >>= f) ↔ stop ≤ size ∧ Inside (f ()) := by
  rw [inside_bind, inside_touch]
  refine and_congr_right fun h => ?_
  rw [touch_eq h]
  exact ⟨fun hf => hf () rfl, fun hf a _ => hf⟩

@[simp] lemma ok_bind (a : α) (f : α → Except Fault β) : (.ok a >>= f) = f a := rfl

@[simp] lemma error_bind (e : Fault) (f : α → Except Fault β) : (.error e >>= f) = .error e := rfl

/-! ## A search through a memory -/

/-- The first place from `i` on whose content has a property. -/
def seek (mem : List α) (f : α → Bool) : ℕ → ℕ → Except Fault ℕ
  | 0, _ => .error .endless
  | fuel + 1, i =>
    match mem[i]? with
    | none => .error .outside
    | some c => if f c then .ok i else seek mem f fuel (i + 1)

lemma seek_found {mem s rest : List α} {f : α → Bool} {c : α} {i fuel : ℕ}
    (h : mem.drop i = s ++ c :: rest) (hs : ∀ b ∈ s, f b = false) (hc : f c = true)
    (hfuel : s.length < fuel) : seek mem f fuel i = .ok (i + s.length) := by
  induction s generalizing i fuel with
  | nil =>
    obtain ⟨k, rfl⟩ : ∃ k, fuel = k + 1 := ⟨fuel - 1, by omega⟩
    have hget : mem[i]? = some c := by
      rw [← List.head?_drop, h]
      rfl
    rw [seek, hget]
    simp only [hc, if_true]
    rfl
  | cons b s ih =>
    obtain ⟨k, rfl⟩ : ∃ k, fuel = k + 1 := ⟨fuel - 1, by omega⟩
    have hget : mem[i]? = some b := by
      rw [← List.head?_drop, h]
      rfl
    have hnext : mem.drop (i + 1) = s ++ c :: rest := by
      rw [← List.drop_drop, h]
      rfl
    rw [List.length_cons] at hfuel
    rw [seek, hget]
    simp only [hs b List.mem_cons_self, Bool.false_eq_true, if_false]
    rw [ih hnext (fun d hd => hs d (List.mem_cons_of_mem _ hd)) (by omega), List.length_cons]
    congr 1
    omega

/-- A search for something that is not there leaves the memory. -/
lemma seek_outside {mem : List α} {f : α → Bool} {i fuel : ℕ}
    (h : ∀ b ∈ mem.drop i, f b = false) (hfuel : (mem.drop i).length < fuel) :
    seek mem f fuel i = .error .outside := by
  induction hn : (mem.drop i).length generalizing i fuel with
  | zero =>
    obtain ⟨k, rfl⟩ : ∃ k, fuel = k + 1 := ⟨fuel - 1, by omega⟩
    rw [List.length_drop] at hn
    rw [seek, List.getElem?_eq_none (by omega)]
  | succ n ih =>
    obtain ⟨k, rfl⟩ : ∃ k, fuel = k + 1 := ⟨fuel - 1, by omega⟩
    obtain ⟨b, s, hs⟩ : ∃ b s, mem.drop i = b :: s :=
      List.exists_cons_of_length_pos (by omega)
    have hget : mem[i]? = some b := by
      rw [← List.head?_drop, hs]
      rfl
    have hnext : mem.drop (i + 1) = s := by
      rw [← List.drop_drop, hs]
      rfl
    rw [hs, List.length_cons] at hn hfuel
    rw [seek, hget]
    simp only [h b (hs ▸ List.mem_cons_self), Bool.false_eq_true, if_false]
    refine ih (fun d hd => h d ?_) (by rw [hnext]; omega) (by rw [hnext]; omega)
    rw [hs]
    exact List.mem_cons_of_mem _ (hnext ▸ hd)

/-! ## Texts in a buffer -/

/-- At most `n` characters from `pos` on, up to a NUL, as `strnlen` and `strncpy` read them. -/
def text (buf : List UInt8) : ℕ → ℕ → Except Fault (List UInt8)
  | _, 0 => .ok []
  | pos, n + 1 => do
    touch buf.length (pos + 1)
    let c := buf.getD pos 0
    if c = 0 then .ok []
    else do
      let rest ← text buf (pos + 1) n
      .ok (c :: rest)

/-! ## Enough fuel -/

/-- With enough fuel the program ends like this. -/
def Ends (f : ℕ → Except Fault α) (x : Except Fault α) : Prop := ∃ n, ∀ fuel, n ≤ fuel → f fuel = x

lemma Ends.exists {f : ℕ → Except Fault α} {x : Except Fault α} (h : Ends f x) :
    ∃ fuel, f fuel = x := by
  obtain ⟨n, hn⟩ := h
  exact ⟨n, hn n le_rfl⟩

lemma ends_const (x : Except Fault α) : Ends (fun _ => x) x := ⟨0, fun _ _ => rfl⟩

lemma Ends.congr {f g : ℕ → Except Fault α} {x : Except Fault α} (hg : Ends g x)
    (h : ∀ fuel, f fuel = g fuel) : Ends f x := by
  obtain ⟨n, hn⟩ := hg
  exact ⟨n, fun fuel hfuel => (h fuel).trans (hn fuel hfuel)⟩

/-- A turn of a loop. -/
lemma Ends.step {f g : ℕ → Except Fault α} {x : Except Fault α} (hg : Ends g x)
    (h : ∀ fuel, f (fuel + 1) = g fuel) : Ends f x := by
  obtain ⟨n, hn⟩ := hg
  refine ⟨n + 1, fun fuel hfuel => ?_⟩
  obtain ⟨k, rfl⟩ : ∃ k, fuel = k + 1 := ⟨fuel - 1, by omega⟩
  rw [h, hn k (by omega)]

/-- A program that returns something has had its first part return something. -/
lemma bind_eq_ok {x : Except Fault α} {f : α → Except Fault β} {b : β} (h : x >>= f = .ok b) :
    ∃ a, x = .ok a ∧ f a = .ok b := by
  cases x with
  | error e => cases h
  | ok a => exact ⟨a, rfl, h⟩

end Guard

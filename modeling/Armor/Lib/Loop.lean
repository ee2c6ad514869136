import Mathlib.Tactic.Ring
import Mathlib.Data.List.Basic

/-! Counted, strided and guarded C loops as folds over their index sequence.
Every combinator has its one-iteration equation, its invariant rule and the rules
that reorder or regroup iterations; nothing here names a particular program. -/
namespace Armor.Loop

variable {σ τ : Type _}

/-- `for (i = 0; i < n; i++) body` -/
def upTo (n : Nat) (body : Nat → σ → σ) (s : σ) : σ :=
  (List.range n).foldl (fun s i => body i s) s

def upToFin (n : Nat) (body : Fin n → σ → σ) (s : σ) : σ := Fin.foldl n (fun s i => body i s) s

/-- `for (i = n - 1; i >= 0; i--) body` -/
def downFrom (n : Nat) (body : Nat → σ → σ) (s : σ) : σ :=
  (List.range n).reverse.foldl (fun s i => body i s) s

/-- `for (i = n - 2; i >= 0; i -= 2) body` -/
def downByTwo (n : Nat) (body : Nat → σ → σ) (s : σ) : σ :=
  downFrom (n / 2) (fun j => body (n % 2 + 2 * j)) s

/-- `for (i = lo; i + step <= hi; i += step) body`, returning the final `i` as well. -/
def strided (step lo hi : Nat) (body : Nat → σ → σ) (s : σ) : Nat × σ :=
  (lo + (hi - lo) / step * step, upTo ((hi - lo) / step) (fun k => body (lo + k * step)) s)

/-- `for (i = 0; i <= n - 2; i += 2) two; if (i < n) one` -/
def paired (n : Nat) (two one : Nat → σ → σ) (s : σ) : σ :=
  let pairs := strided 2 0 n two s
  if pairs.1 < n then one pairs.1 pairs.2 else pairs.2

/-- `for (i = n - 2; i >= 2; i -= 4) two; if (i == 0) one`, on `n = i + 2`. -/
def pairedDown (two one : Nat → σ → σ) : Nat → σ → σ
  | 0, s => s
  | 1, s => s
  | 2, s => one 0 s
  | 3, s => s
  | n + 4, s => pairedDown two one n (two (n + 2) s)

/-- `for (i = n - 2; i >= 2; i -= 4) { if (ready) two; else { one; i += 2; } }` and then
`for (; i >= 0; i -= 2) one`, on `n = i + 2`. -/
def attemptDown (ready : Nat → σ → Bool) (two one : Nat → σ → σ) : Nat → σ → σ
  | 0, s => s
  | 1, s => s
  | 2, s => one 0 s
  | 3, s => one 1 s
  | n + 4, s =>
    if ready (n + 2) s then attemptDown ready two one n (two (n + 2) s)
    else attemptDown ready two one (n + 2) (one (n + 2) s)

/-- `while (cond) body`, cut after `fuel` iterations. -/
def whileFuel : Nat → (σ → Bool) → (σ → σ) → σ → σ
  | 0, _, _, s => s
  | fuel + 1, cond, body, s => if cond s then whileFuel fuel cond body (body s) else s

def whileSome (fuel : Nat) (cond : σ → Bool) (body : σ → σ) (s : σ) : Option σ :=
  if cond (whileFuel fuel cond body s) then none else some (whileFuel fuel cond body s)

/-- `for (uint16_t i = 0; i < n; i++) body`, cut after `fuel` iterations, with the final `i`. -/
def shortUpTo (fuel n : Nat) (body : Nat → σ → σ) (s : σ) : Option (UInt16 × σ) :=
  whileSome fuel (fun x => decide (x.1.toNat < n)) (fun x => (x.1 + 1, body x.1.toNat x.2)) (0, s)

def attemptStep (ready : Nat → σ → Bool) (two one : Nat → σ → σ) (x : Int × σ) : Int × σ :=
  if ready x.1.toNat x.2 then (x.1 - 4, two x.1.toNat x.2) else (x.1 + 2 - 4, one x.1.toNat x.2)

def attemptLoops (fuel : Nat) (ready : Nat → σ → Bool) (two one : Nat → σ → σ) (n : Nat) (s : σ) : Option σ := do
  let pairs ← whileSome fuel (fun x => decide (x.1 ≥ 2)) (attemptStep ready two one) ((n : Int) - 2, s)
  let rest ← whileSome fuel (fun x => decide (x.1 ≥ 0)) (fun x => (x.1 - 2, one x.1.toNat x.2)) pairs
  some rest.2

@[simp] theorem upToZero (body : Nat → σ → σ) (s : σ) : upTo 0 body s = s := rfl

theorem upToSucc (n : Nat) (body : Nat → σ → σ) (s : σ) :
    upTo (n + 1) body s = body n (upTo n body s) := by
  simp [upTo, List.range_succ]

theorem upToAdd (a b : Nat) (body : Nat → σ → σ) (s : σ) :
    upTo (a + b) body s = upTo b (fun i => body (a + i)) (upTo a body s) := by
  induction b with
  | zero => rfl
  | succ b ih => rw [← Nat.add_assoc, upToSucc, upToSucc, ih]

theorem upToFirst (n : Nat) (body : Nat → σ → σ) (s : σ) :
    upTo (n + 1) body s = upTo n (fun i => body (i + 1)) (body 0 s) := by
  rw [Nat.add_comm, upToAdd]
  simp only [Nat.add_comm 1]
  rfl

theorem upToMul (a b : Nat) (body : Nat → σ → σ) (s : σ) :
    upTo (a * b) body s = upTo a (fun i => upTo b (fun j => body (i * b + j))) s := by
  induction a with
  | zero => simp
  | succ a ih => rw [Nat.succ_mul, upToAdd, upToSucc, ih]

theorem upToCongr {n : Nat} {f g : Nat → σ → σ} (same : ∀ i < n, ∀ s, f i s = g i s) (s : σ) :
    upTo n f s = upTo n g s := by
  induction n with
  | zero => rfl
  | succ n ih =>
    rw [upToSucc, upToSucc, ih fun i hi => same i (by omega), same n (by omega)]

theorem upToInvariant {n : Nat} {body : Nat → σ → σ} {s : σ} (inv : Nat → σ → Prop)
    (start : inv 0 s) (step : ∀ i < n, ∀ t, inv i t → inv (i + 1) (body i t)) :
    inv n (upTo n body s) := by
  induction n with
  | zero => exact start
  | succ n ih =>
    rw [upToSucc]
    exact step n (by omega) _ (ih fun i hi => step i (by omega))

theorem upToRelated {n : Nat} {f : Nat → σ → σ} {g : Nat → τ → τ} {s : σ} {t : τ}
    (rel : Nat → σ → τ → Prop) (start : rel 0 s t)
    (step : ∀ i < n, ∀ a b, rel i a b → rel (i + 1) (f i a) (g i b)) :
    rel n (upTo n f s) (upTo n g t) := by
  induction n with
  | zero => exact start
  | succ n ih =>
    rw [upToSucc, upToSucc]
    exact step n (by omega) _ _ (ih fun i hi => step i (by omega))

@[simp] theorem upToFinZero (body : Fin 0 → σ → σ) (s : σ) : upToFin 0 body s = s := rfl

theorem upToFinSucc (n : Nat) (body : Fin (n + 1) → σ → σ) (s : σ) :
    upToFin (n + 1) body s = body (Fin.last n) (upToFin n (fun i => body i.castSucc) s) := by
  simp only [upToFin, Fin.foldl_succ_last]

theorem upToFinRelated {n : Nat} {f : Fin n → σ → σ} {g : Fin n → τ → τ} {s : σ} {t : τ}
    (rel : Nat → σ → τ → Prop) (start : rel 0 s t)
    (step : ∀ i : Fin n, ∀ a b, rel i a b → rel (i + 1) (f i a) (g i b)) :
    rel n (upToFin n f s) (upToFin n g t) := by
  induction n with
  | zero => exact start
  | succ n ih =>
    rw [upToFinSucc, upToFinSucc]
    exact step (Fin.last n) _ _ (ih fun i => step i.castSucc)

theorem upToList {α : Type _} (l : List α) (d : α) (body : α → σ → σ) (s : σ) :
    upTo l.length (fun i => body (l.getD i d)) s = l.foldl (fun s a => body a s) s := by
  induction l generalizing s with
  | nil => rfl
  | cons a l ih =>
    rw [List.length_cons, upToFirst, List.foldl_cons, ← ih]
    rfl

@[simp] theorem downFromZero (body : Nat → σ → σ) (s : σ) : downFrom 0 body s = s := rfl

theorem downFromSucc (n : Nat) (body : Nat → σ → σ) (s : σ) :
    downFrom (n + 1) body s = downFrom n body (body n s) := by
  simp [downFrom, List.range_succ]

theorem downFromAdd (a b : Nat) (body : Nat → σ → σ) (s : σ) :
    downFrom (a + b) body s = downFrom a body (downFrom b (fun i => body (a + i)) s) := by
  induction b generalizing s with
  | zero => rfl
  | succ b ih => rw [← Nat.add_assoc, downFromSucc, downFromSucc, ih]

theorem downFromCongr {n : Nat} {f g : Nat → σ → σ} (same : ∀ i < n, ∀ s, f i s = g i s) (s : σ) :
    downFrom n f s = downFrom n g s := by
  induction n generalizing s with
  | zero => rfl
  | succ n ih =>
    rw [downFromSucc, downFromSucc, same n (by omega), ih fun i hi => same i (by omega)]

theorem downFromInvariant {n : Nat} {body : Nat → σ → σ} {s : σ} (inv : Nat → σ → Prop)
    (start : inv n s) (step : ∀ i < n, ∀ t, inv (i + 1) t → inv i (body i t)) :
    inv 0 (downFrom n body s) := by
  induction n generalizing s with
  | zero => exact start
  | succ n ih =>
    rw [downFromSucc]
    exact ih (step n (by omega) _ start) fun i hi => step i (by omega)

theorem downFromRelated {n : Nat} {f : Nat → σ → σ} {g : Nat → τ → τ} {s : σ} {t : τ}
    (rel : Nat → σ → τ → Prop) (start : rel n s t)
    (step : ∀ i < n, ∀ a b, rel (i + 1) a b → rel i (f i a) (g i b)) :
    rel 0 (downFrom n f s) (downFrom n g t) := by
  induction n generalizing s t with
  | zero => exact start
  | succ n ih =>
    rw [downFromSucc, downFromSucc]
    exact ih (step n (by omega) _ _ start) fun i hi => step i (by omega)

theorem downFromMap {n : Nat} {f : Nat → τ → τ} {g : Nat → σ → σ} (encode : σ → τ)
    (same : ∀ i < n, ∀ s, f i (encode s) = encode (g i s)) (s : σ) :
    downFrom n f (encode s) = encode (downFrom n g s) := by
  induction n generalizing s with
  | zero => rfl
  | succ n ih =>
    rw [downFromSucc, downFromSucc, same n (by omega), ih fun i hi => same i (by omega)]

theorem downFromFold {α : Type _} (n : Nat) (visit : Nat → α) (body : α → σ → σ) (s : σ) :
    downFrom n (fun i => body (visit i)) s =
      ((List.range n).reverse.map visit).foldl (fun s a => body a s) s := by
  simp only [downFrom, List.foldl_map]

theorem upToDownFrom {n : Nat} {body : Nat → σ → σ}
    (commute : ∀ i < n, ∀ j < n, ∀ s, body i (body j s) = body j (body i s)) (s : σ) :
    upTo n body s = downFrom n body s :=
  (List.reverse_perm (List.range n)).symm.foldl_eq' (fun i here j there s =>
    commute j (List.mem_range.mp there) i (List.mem_range.mp here) s) s

theorem downByTwoEven {n : Nat} (even : n % 2 = 0) (body : Nat → σ → σ) (s : σ) :
    downByTwo n body s = downFrom (n / 2) (fun j => body (2 * j)) s := by
  simp only [downByTwo, even, Nat.zero_add]

theorem downByTwoStep (n : Nat) (body : Nat → σ → σ) (s : σ) :
    downByTwo (n + 2) body s = downByTwo n body (body n s) := by
  simp only [downByTwo, Nat.add_div_right n (show 0 < 2 by omega), Nat.add_mod_right]
  rw [downFromSucc, Nat.mod_add_div]

theorem pairedDownRun {two one : Nat → σ → σ} (n : Nat) (even : n % 2 = 0)
    (same : ∀ i, i % 2 = 0 → i + 4 ≤ n → ∀ s, two (i + 2) s = one i (one (i + 2) s)) (s : σ) :
    pairedDown two one n s = downByTwo n one s := by
  induction n using Nat.strongRecOn generalizing s with
  | ind n ih =>
    match n, even with
    | 0, _ => rfl
    | 2, _ => rfl
    | n + 4, even =>
      rw [pairedDown, ih n (by omega) (by omega) fun i h le => same i h (by omega),
        same n (by omega) (by omega), downByTwoStep, downByTwoStep]

theorem attemptDownRun {ready : Nat → σ → Bool} {two one : Nat → σ → σ} (n : Nat) (even : n % 2 = 0)
    (same : ∀ i, i % 2 = 0 → i + 4 ≤ n → ∀ s, ready (i + 2) s = true → two (i + 2) s = one i (one (i + 2) s))
    (s : σ) : attemptDown ready two one n s = downByTwo n one s := by
  induction n using Nat.strongRecOn generalizing s with
  | ind n ih =>
    match n, even with
    | 0, _ => rfl
    | 2, _ => rfl
    | n + 4, even =>
      rw [attemptDown]
      split
      · rw [ih n (by omega) (by omega) fun i h le => same i h (by omega),
          same n (by omega) (by omega) s (by assumption), downByTwoStep, downByTwoStep]
      · rw [ih (n + 2) (by omega) (by omega) fun i h le => same i h (by omega), downByTwoStep (n + 2)]

theorem stridedCongr {step lo hi : Nat} {f g : Nat → σ → σ}
    (same : ∀ k < (hi - lo) / step, ∀ s, f (lo + k * step) s = g (lo + k * step) s) (s : σ) :
    strided step lo hi f s = strided step lo hi g s := by
  rw [strided, strided, upToCongr same]

theorem stridedInvariant {step hi : Nat} {body : Nat → σ → σ} (inv : Nat → σ → Prop)
    {s : σ} (start : inv 0 s) (next : ∀ i, i % step = 0 → i + step ≤ hi → ∀ t, inv i t → inv (i + step) (body i t)) :
    inv (strided step 0 hi body s).1 (strided step 0 hi body s).2 := by
  simp only [strided, Nat.zero_add, Nat.sub_zero]
  refine upToInvariant (fun k t => inv (k * step) t) (by rwa [Nat.zero_mul]) fun k below t here => ?_
  have room : (k + 1) * step ≤ hi :=
    Nat.le_trans (Nat.mul_le_mul_right step below) (Nat.div_mul_le_self hi step)
  rw [Nat.succ_mul] at room ⊢
  exact next (k * step) (Nat.mul_mod_left k step) room t here

theorem pairedInvariant {n : Nat} {two one : Nat → σ → σ} (inv : Nat → σ → Prop) {s : σ}
    (start : inv 0 s) (next : ∀ i, i % 2 = 0 → i + 2 ≤ n → ∀ t, inv i t → inv (i + 2) (two i t))
    (last : ∀ i, i % 2 = 0 → i + 1 = n → ∀ t, inv i t → inv (i + 1) (one i t)) :
    inv n (paired n two one s) := by
  have pairs := stridedInvariant inv start next
  have index : (strided 2 0 n two s).1 = n / 2 * 2 := by simp [strided]
  simp only [paired]
  rw [index] at pairs ⊢
  split
  · have here := last (n / 2 * 2) (by omega) (by omega) _ pairs
    rwa [show n / 2 * 2 + 1 = n by omega] at here
  · rwa [show n / 2 * 2 = n by omega] at pairs

theorem pairedRun {n : Nat} {two one : Nat → σ → σ}
    (same : ∀ i, i + 2 ≤ n → ∀ s, two i s = one (i + 1) (one i s)) (s : σ) :
    paired n two one s = upTo n one s :=
  pairedInvariant (fun i t => t = upTo i one s) rfl
    (fun i _ room t here => by rw [same i room, here, show i + 2 = i + 1 + 1 by omega, upToSucc, upToSucc])
    (fun i _ _ t here => by rw [here, upToSucc])

theorem stridedTail (step width n : Nat) (body : Nat → σ → σ) (s : σ) (positive : 0 < step)
    (divides : 0 < width) :
    let first := strided (width * step) 0 n (fun i t =>
      (strided step 0 (width * step) (fun k => body (i + k)) t).2) s
    (strided step first.1 n body first.2).2 = (strided step 0 n body s).2 := by
  simp only [strided, Nat.zero_add, Nat.sub_zero, Nat.mul_div_cancel _ positive]
  have wide : 0 < width * step := Nat.mul_pos divides positive
  have total : n / step = n / (width * step) * width + (n - n / (width * step) * (width * step)) / step := by
    have split : n / step = n / step / width * width + n / step % width := by
      rw [Nat.mul_comm]; exact (Nat.div_add_mod _ _).symm
    have outer : n / step / width = n / (width * step) := by
      rw [Nat.div_div_eq_div_mul, Nat.mul_comm]
    have rest : (n - n / (width * step) * (width * step)) / step = n / step % width := by
      have below : n - n / (width * step) * (width * step) = n % (width * step) := by
        rw [Nat.mul_comm]; have := Nat.div_add_mod n (width * step); omega
      rw [below, Nat.mul_comm width step, Nat.mod_mul_right_div_self]
    rw [rest, ← outer]; exact split
  rw [total, upToAdd, upToMul]
  have inner : ∀ t, upTo (n / (width * step)) (fun i t => upTo width (fun k => body (i * (width * step) + k * step)) t) t =
      upTo (n / (width * step)) (fun i => upTo width (fun j => body ((i * width + j) * step))) t := fun t =>
    upToCongr (fun i _ u => upToCongr (fun j _ v => by congr 1; ring) _) _
  rw [inner]
  exact upToCongr (fun i _ t => by congr 1; ring) _

theorem pairedDownKeeps {two one : Nat → σ → σ} {inv : σ → Prop} (twice : ∀ i s, inv s → inv (two i s))
    (once : ∀ i s, inv s → inv (one i s)) (n : Nat) {s : σ} (start : inv s) : inv (pairedDown two one n s) := by
  fun_induction pairedDown two one n s with
  | case1 => exact start
  | case2 => exact start
  | case3 s => exact once 0 s start
  | case4 => exact start
  | case5 n s ih => exact ih (twice (n + 2) s start)

theorem attemptDownKeeps {ready : Nat → σ → Bool} {two one : Nat → σ → σ} {inv : σ → Prop}
    (twice : ∀ i s, inv s → inv (two i s)) (once : ∀ i s, inv s → inv (one i s)) (n : Nat) {s : σ} (start : inv s) :
    inv (attemptDown ready two one n s) := by
  fun_induction attemptDown ready two one n s with
  | case1 => exact start
  | case2 => exact start
  | case3 s => exact once 0 s start
  | case4 s => exact once 1 s start
  | case5 n s _ ih => exact ih (twice (n + 2) s start)
  | case6 n s _ ih => exact ih (once (n + 2) s start)

theorem pairedKeeps {n : Nat} {two one : Nat → σ → σ} {inv : σ → Prop} (twice : ∀ i s, inv s → inv (two i s))
    (once : ∀ i s, inv s → inv (one i s)) {s : σ} (start : inv s) : inv (paired n two one s) := by
  unfold paired
  dsimp only
  have pairs : inv (strided 2 0 n two s).2 := upToInvariant (fun _ s => inv s) start fun k _ s here => twice _ s here
  split
  · exact once _ _ pairs
  · exact pairs

theorem downByTwoKeeps {n : Nat} {body : Nat → σ → σ} {inv : σ → Prop} (each : ∀ i s, inv s → inv (body i s)) {s : σ}
    (start : inv s) : inv (downByTwo n body s) :=
  downFromInvariant (fun _ s => inv s) start fun _ _ s here => each _ s here

theorem whileFuelStop {cond : σ → Bool} {s : σ} (stop : cond s = false) (fuel : Nat) (body : σ → σ) :
    whileFuel fuel cond body s = s := by
  cases fuel <;> simp [whileFuel, stop]

theorem whileSomeStop {cond : σ → Bool} {s : σ} (stop : cond s = false) (fuel : Nat) (body : σ → σ) :
    whileSome fuel cond body s = some s := by
  simp [whileSome, whileFuelStop stop, stop]

theorem whileSomeStep {cond : σ → Bool} {s : σ} (more : cond s = true) (fuel : Nat) (body : σ → σ) :
    whileSome (fuel + 1) cond body s = whileSome fuel cond body (body s) := by
  simp [whileSome, whileFuel, more]

theorem shortUpToRun {fuel n : Nat} (fits : n < 2 ^ 16) (enough : n ≤ fuel) (body : Nat → σ → σ) (s : σ) :
    shortUpTo fuel n body s = some (UInt16.ofNat n, upTo n body s) := by
  have rest : ∀ left i, i + left = n → ∀ fuel, left ≤ fuel →
      whileSome fuel (fun x : UInt16 × σ => decide (x.1.toNat < n)) (fun x => (x.1 + 1, body x.1.toNat x.2))
        (UInt16.ofNat i, upTo i body s) = some (UInt16.ofNat n, upTo n body s) := by
    intro left
    induction left with
    | zero =>
      intro i last fuel _
      have here : (UInt16.ofNat i).toNat = i := UInt16.toNat_ofNat_of_lt' (show i < 2 ^ 16 by omega)
      rw [whileSomeStop (by simp only [here]; exact decide_eq_false (by omega)), show i = n by omega]
    | succ left ih =>
      intro i more fuel enough
      have here : (UInt16.ofNat i).toNat = i := UInt16.toNat_ofNat_of_lt' (show i < 2 ^ 16 by omega)
      obtain ⟨fuel, rfl⟩ : ∃ k, fuel = k + 1 := ⟨fuel - 1, by omega⟩
      rw [whileSomeStep (by simp only [here]; exact decide_eq_true (by omega)), ← ih (i + 1) (by omega) fuel (by omega)]
      simp only [here, upToSucc, UInt16.ofNat_add]
      rfl
  exact rest n 0 (by omega) fuel enough

theorem attemptStepAt {ready : Nat → σ → Bool} {two one : Nat → σ → σ} (k : Nat) (s : σ) :
    attemptStep ready two one (((k + 4 : Nat) : Int) - 2, s) =
      if ready (k + 2) s then ((k : Int) - 2, two (k + 2) s) else (((k + 2 : Nat) : Int) - 2, one (k + 2) s) := by
  have index : (((k + 4 : Nat) : Int) - 2).toNat = k + 2 := by omega
  have four : ((k + 4 : Nat) : Int) - 2 - 4 = (k : Int) - 2 := by omega
  have two_ : ((k + 4 : Nat) : Int) - 2 + 2 - 4 = ((k + 2 : Nat) : Int) - 2 := by omega
  simp only [attemptStep, index, four, two_]

theorem attemptPairs {ready : Nat → σ → Bool} {two one : Nat → σ → σ} (fuel n : Nat) (s : σ) (enough : n ≤ fuel) :
    ∃ m < 4, m ≤ n ∧ ∃ t, whileSome fuel (fun x => decide (x.1 ≥ 2)) (attemptStep ready two one) ((n : Int) - 2, s) =
        some ((m : Int) - 2, t) ∧ attemptDown ready two one n s = attemptDown ready two one m t := by
  induction fuel generalizing n s with
  | zero => exact ⟨n, by omega, Nat.le_refl n, s, whileSomeStop (by simp; omega) 0 _, rfl⟩
  | succ fuel ih =>
    by_cases short : n < 4
    · exact ⟨n, short, Nat.le_refl n, s, whileSomeStop (by simp; omega) _ _, rfl⟩
    · obtain ⟨k, rfl⟩ : ∃ k, n = k + 4 := ⟨n - 4, by omega⟩
      have step : whileSome (fuel + 1) (fun x : Int × σ => decide (x.1 ≥ 2)) (attemptStep ready two one)
          (((k + 4 : Nat) : Int) - 2, s) = whileSome fuel (fun x => decide (x.1 ≥ 2)) (attemptStep ready two one)
            (attemptStep ready two one (((k + 4 : Nat) : Int) - 2, s)) := whileSomeStep (by simp; omega) fuel _
      rw [step, attemptStepAt, attemptDown]
      split
      · obtain ⟨m, small, le, t, run, same⟩ := ih k (two (k + 2) s) (by omega)
        exact ⟨m, small, by omega, t, run, same⟩
      · obtain ⟨m, small, le, t, run, same⟩ := ih (k + 2) (one (k + 2) s) (by omega)
        exact ⟨m, small, by omega, t, run, same⟩

theorem attemptLoopsRun {ready : Nat → σ → Bool} {two one : Nat → σ → σ} {fuel n : Nat} (enough : n ≤ fuel) (s : σ) :
    attemptLoops fuel ready two one n s = some (attemptDown ready two one n s) := by
  obtain ⟨m, small, le, t, run, same⟩ := @attemptPairs σ ready two one fuel n s enough
  have single : ∃ i, whileSome fuel (fun x => decide (x.1 ≥ 0)) (fun x => (x.1 - 2, one x.1.toNat x.2))
      ((m : Int) - 2, t) = some (i, attemptDown ready two one m t) := by
    match m, small with
    | 0, _ => exact ⟨_, whileSomeStop rfl fuel _⟩
    | 1, _ => exact ⟨_, whileSomeStop rfl fuel _⟩
    | 2, _ | 3, _ =>
      obtain ⟨rest, rfl⟩ : ∃ rest, fuel = rest + 1 := ⟨fuel - 1, by omega⟩
      exact ⟨_, (whileSomeStep rfl rest _).trans (whileSomeStop rfl rest _)⟩
  obtain ⟨i, single⟩ := single
  simp only [attemptLoops, run, same, Option.bind_eq_bind, Option.bind_some, single]

end Armor.Loop

import ObjectMachine.Memory.Basic

/-!
# Reading back what was stored

Words and headers are made of consecutive bytes. Two arenas that agree on those bytes agree on
the word, so a store leaves alone whatever lies elsewhere, and what it stored is read back.
-/

namespace ObjectMachine

theorem Word.toNat_ofBytes (b₀ b₁ b₂ b₃ : UInt8) :
    (Word.ofBytes b₀ b₁ b₂ b₃).toNat =
      ((b₀.toNat * 256 + b₁.toNat) * 256 + b₂.toNat) * 256 + b₃.toNat := by
  have h₀ := b₀.toNat_lt
  have h₁ := b₁.toNat_lt
  have h₂ := b₂.toNat_lt
  have h₃ := b₃.toNat_lt
  rw [Word.ofBytes, UInt32.toNat_ofNat']
  omega

theorem Word.ofBytes_inj {b₀ b₁ b₂ b₃ c₀ c₁ c₂ c₃ : UInt8}
    (same : ofBytes b₀ b₁ b₂ b₃ = ofBytes c₀ c₁ c₂ c₃) :
    b₀ = c₀ ∧ b₁ = c₁ ∧ b₂ = c₂ ∧ b₃ = c₃ := by
  have numbers := congrArg UInt32.toNat same
  rw [toNat_ofBytes, toNat_ofBytes] at numbers
  have h₁ := b₁.toNat_lt
  have h₂ := b₂.toNat_lt
  have h₃ := b₃.toNat_lt
  have k₁ := c₁.toNat_lt
  have k₂ := c₂.toNat_lt
  have k₃ := c₃.toNat_lt
  refine ⟨UInt8.toNat_inj.mp ?_, UInt8.toNat_inj.mp ?_, UInt8.toNat_inj.mp ?_,
    UInt8.toNat_inj.mp ?_⟩ <;> omega

namespace Arena

/-!
## Agreement on a range of bytes
-/

def AgreeOn (arena other : Arena) (first limit : Nat) : Prop :=
  ∀ pos, first ≤ pos → pos < limit → arena.byte? pos = other.byte? pos

namespace AgreeOn

variable {arena other third : Arena} {first limit : Nat}

theorem refl (arena : Arena) (first limit : Nat) : AgreeOn arena arena first limit := by
  intro pos _ _
  rfl

theorem trans (agree : AgreeOn arena other first limit)
    (agree' : AgreeOn other third first limit) : AgreeOn arena third first limit := by
  intro pos lower upper
  exact (agree pos lower upper).trans (agree' pos lower upper)

theorem symm (agree : AgreeOn arena other first limit) : AgreeOn other arena first limit := by
  intro pos lower upper
  exact (agree pos lower upper).symm

theorem append {middle : Nat} (front : AgreeOn arena other first middle)
    (back : AgreeOn arena other middle limit) : AgreeOn arena other first limit := by
  intro pos lower upper
  rcases Nat.lt_or_ge pos middle with before | behind
  · exact front pos lower before
  · exact back pos behind upper

theorem mono (agree : AgreeOn arena other first limit) {first' limit' : Nat}
    (lower : first ≤ first') (upper : limit' ≤ limit) : AgreeOn arena other first' limit' := by
  intro pos above below
  exact agree pos (Nat.le_trans lower above) (Nat.lt_of_lt_of_le below upper)

end AgreeOn

theorem byte?_isSome_iff (arena : Arena) (pos : Nat) :
    (arena.byte? pos).isSome ↔ pos < arena.size := by
  simp [byte?, size]

theorem word?_isSome_iff (arena : Arena) (pos : Nat) :
    (arena.word? pos).isSome ↔ pos + 4 ≤ arena.size := by
  unfold word? size
  split
  · next inside => simp [inside]
  · next outside => simp [outside]

theorem word?_eq_bind (arena : Arena) (pos : Nat) :
    arena.word? pos =
      (arena.byte? pos).bind fun b₀ => (arena.byte? (pos + 1)).bind fun b₁ =>
        (arena.byte? (pos + 2)).bind fun b₂ => (arena.byte? (pos + 3)).map fun b₃ =>
          Word.ofBytes b₀ b₁ b₂ b₃ := by
  unfold word?
  split
  · next inside =>
      have h₀ : pos < arena.bytes.size := by omega
      have h₁ : pos + 1 < arena.bytes.size := by omega
      have h₂ : pos + 2 < arena.bytes.size := by omega
      have h₃ : pos + 3 < arena.bytes.size := by omega
      simp [byte?, h₀, h₁, h₂, h₃]
  · next outside =>
      have h₃ : ¬ pos + 3 < arena.bytes.size := by omega
      cases arena.byte? pos <;> cases arena.byte? (pos + 1) <;> cases arena.byte? (pos + 2) <;>
        simp [byte?, h₃]

theorem word?_congr {arena other : Arena} {pos : Nat} (agree : AgreeOn arena other pos (pos + 4)) :
    arena.word? pos = other.word? pos := by
  rw [word?_eq_bind, word?_eq_bind, agree pos (by omega) (by omega),
    agree (pos + 1) (by omega) (by omega), agree (pos + 2) (by omega) (by omega),
    agree (pos + 3) (by omega) (by omega)]

theorem word?_eq_some_iff {arena : Arena} {pos : Nat} {word : UInt32} :
    arena.word? pos = some word ↔
      ∃ b₀ b₁ b₂ b₃, arena.byte? pos = some b₀ ∧ arena.byte? (pos + 1) = some b₁ ∧
        arena.byte? (pos + 2) = some b₂ ∧ arena.byte? (pos + 3) = some b₃ ∧
        word = Word.ofBytes b₀ b₁ b₂ b₃ := by
  rw [word?_eq_bind]
  simp only [Option.bind_eq_some_iff, Option.map_eq_some_iff]
  constructor
  · intro found
    rcases found with ⟨b₀, h₀, b₁, h₁, b₂, h₂, b₃, h₃, same⟩
    exact ⟨b₀, b₁, b₂, b₃, h₀, h₁, h₂, h₃, same.symm⟩
  · intro found
    rcases found with ⟨b₀, b₁, b₂, b₃, h₀, h₁, h₂, h₃, same⟩
    exact ⟨b₀, h₀, b₁, h₁, b₂, h₂, b₃, h₃, same.symm⟩

theorem agreeOn_of_word? {arena other : Arena} {pos : Nat} {word : UInt32}
    (found : arena.word? pos = some word) (found' : other.word? pos = some word) :
    AgreeOn arena other pos (pos + 4) := by
  rcases word?_eq_some_iff.mp found with ⟨b₀, b₁, b₂, b₃, h₀, h₁, h₂, h₃, rfl⟩
  rcases word?_eq_some_iff.mp found' with ⟨c₀, c₁, c₂, c₃, k₀, k₁, k₂, k₃, same⟩
  rcases Word.ofBytes_inj same with ⟨rfl, rfl, rfl, rfl⟩
  intro i lower upper
  have four : i = pos ∨ i = pos + 1 ∨ i = pos + 2 ∨ i = pos + 3 := by omega
  rcases four with rfl | rfl | rfl | rfl
  · rw [h₀, k₀]
  · rw [h₁, k₁]
  · rw [h₂, k₂]
  · rw [h₃, k₃]

theorem eq_of_agreeOn {arena other : Arena} (size : arena.size = other.size)
    (agree : AgreeOn arena other 0 other.size) : arena = other := by
  have bytes : arena.bytes = other.bytes := by
    refine Array.ext size ?_
    intro i inside inside'
    have same := agree i (Nat.zero_le i) inside'
    rw [byte?, byte?, Array.getElem?_eq_getElem inside, Array.getElem?_eq_getElem inside'] at same
    exact Option.some.inj same
  cases arena
  cases other
  exact congrArg Arena.mk bytes

/-!
## Storing bytes
-/

theorem byte?_setByte (arena : Arena) (pos other : Nat) (b : UInt8) :
    (arena.setByte pos b).byte? other =
      if pos = other ∧ other < arena.size then some b else arena.byte? other := by
  unfold setByte byte? size
  rw [Array.getElem?_setIfInBounds]
  by_cases same : pos = other
  · subst same
    by_cases inside : pos < arena.bytes.size <;> simp [inside]
  · simp [same]

theorem agreeOn_setByte (arena : Arena) {pos first limit : Nat} (b : UInt8)
    (outside : limit ≤ pos ∨ pos + 1 ≤ first) :
    AgreeOn (arena.setByte pos b) arena first limit := by
  intro other lower upper
  rw [byte?_setByte, if_neg]
  omega

theorem setWord_eq (arena : Arena) (pos : Nat) (word : UInt32) :
    arena.setWord pos word =
      (((arena.setByte pos (Word.byte word 0)).setByte (pos + 1) (Word.byte word 1)).setByte
        (pos + 2) (Word.byte word 2)).setByte (pos + 3) (Word.byte word 3) := rfl

theorem agreeOn_setWord (arena : Arena) {pos first limit : Nat} (word : UInt32)
    (outside : limit ≤ pos ∨ pos + 4 ≤ first) :
    AgreeOn (arena.setWord pos word) arena first limit := by
  rw [setWord_eq]
  exact (agreeOn_setByte _ _ (by omega)).trans ((agreeOn_setByte _ _ (by omega)).trans
    ((agreeOn_setByte _ _ (by omega)).trans (agreeOn_setByte _ _ (by omega))))

theorem word?_setWord (arena : Arena) {pos : Nat} (word : UInt32) (inside : pos + 4 ≤ arena.size) :
    (arena.setWord pos word).word? pos = some word := by
  have h₀ : pos < arena.size := by omega
  have h₁ : pos + 1 < arena.size := by omega
  have h₂ : pos + 2 < arena.size := by omega
  have h₃ : pos + 3 < arena.size := by omega
  rw [word?_eq_bind, setWord_eq]
  simp [byte?_setByte, h₀, h₁, h₂, h₃]

theorem word?_setWord_of_disjoint (arena : Arena) {pos other : Nat} (word : UInt32)
    (outside : other + 4 ≤ pos ∨ pos + 4 ≤ other) :
    (arena.setWord pos word).word? other = arena.word? other :=
  word?_congr (agreeOn_setWord arena word outside)

@[simp] theorem size_clear (arena : Arena) (pos count : Nat) :
    (arena.clear pos count).size = arena.size := by
  induction count generalizing arena pos with
  | zero => rfl
  | succ count ih =>
      rw [clear, ih, size_setByte]

theorem agreeOn_clear (arena : Arena) {pos count first limit : Nat}
    (outside : limit ≤ pos ∨ pos + count ≤ first) :
    AgreeOn (arena.clear pos count) arena first limit := by
  induction count generalizing arena pos with
  | zero => exact AgreeOn.refl arena first limit
  | succ count ih =>
      rw [clear]
      exact (ih _ (by omega)).trans (agreeOn_setByte arena 0 (by omega))

theorem byte?_clear (arena : Arena) {pos count other : Nat} (inside : pos + count ≤ arena.size)
    (lower : pos ≤ other) (upper : other < pos + count) :
    (arena.clear pos count).byte? other = some 0 := by
  induction count generalizing arena pos with
  | zero => omega
  | succ count ih =>
      rw [clear]
      by_cases same : pos = other
      · -- The first byte is cleared now, and the rest of the work leaves it alone.
        subst same
        have kept : AgreeOn ((arena.setByte pos 0).clear (pos + 1) count) (arena.setByte pos 0)
            pos (pos + 1) := agreeOn_clear _ (Or.inl (Nat.le_refl _))
        rw [kept pos (by omega) (by omega), byte?_setByte, if_pos (by omega)]
      · exact ih _ (by rw [size_setByte]; omega) (by omega) (by omega)

/-!
## The top bit of a byte
-/

@[simp] theorem size_setTop (arena : Arena) (pos : Nat) : (arena.setTop pos).size = arena.size := by
  unfold setTop
  split
  · split
    · exact size_setByte _ _ _
    · rfl
  · rfl

@[simp] theorem size_clearTop (arena : Arena) (pos : Nat) :
    (arena.clearTop pos).size = arena.size := by
  unfold clearTop
  split
  · split
    · rfl
    · exact size_setByte _ _ _
  · rfl

theorem agreeOn_setTop (arena : Arena) {pos first limit : Nat}
    (outside : limit ≤ pos ∨ pos + 1 ≤ first) :
    AgreeOn (arena.setTop pos) arena first limit := by
  unfold setTop
  split
  · split
    · exact agreeOn_setByte _ _ outside
    · exact AgreeOn.refl _ _ _
  · exact AgreeOn.refl _ _ _

theorem agreeOn_clearTop (arena : Arena) {pos first limit : Nat}
    (outside : limit ≤ pos ∨ pos + 1 ≤ first) :
    AgreeOn (arena.clearTop pos) arena first limit := by
  unfold clearTop
  split
  · split
    · exact AgreeOn.refl _ _ _
    · exact agreeOn_setByte _ _ outside
  · exact AgreeOn.refl _ _ _

theorem byte?_setTop {arena : Arena} {pos : Nat} {b : UInt8} (found : arena.byte? pos = some b) :
    (arena.setTop pos).byte? pos = some (if b < 128 then b + 128 else b) := by
  have inside : pos < arena.size := (arena.byte?_isSome_iff pos).mp (by rw [found]; rfl)
  have stored : arena.bytes[pos]? = some b := found
  unfold setTop
  rw [stored]
  by_cases low : b < 128
  · simp only [low, if_true]
    rw [byte?_setByte, if_pos ⟨rfl, inside⟩]
  · simp only [low, if_false]
    exact found

theorem byte?_clearTop {arena : Arena} {pos : Nat} {b : UInt8} (found : arena.byte? pos = some b) :
    (arena.clearTop pos).byte? pos = some (if b < 128 then b else b - 128) := by
  have inside : pos < arena.size := (arena.byte?_isSome_iff pos).mp (by rw [found]; rfl)
  have stored : arena.bytes[pos]? = some b := found
  unfold clearTop
  rw [stored]
  by_cases low : b < 128
  · simp only [low, if_true]
    exact found
  · simp only [low, if_false]
    rw [byte?_setByte, if_pos ⟨rfl, inside⟩]

end Arena
end ObjectMachine

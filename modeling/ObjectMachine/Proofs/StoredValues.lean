import ObjectMachine.Memory.Access
import ObjectMachine.Proofs.Headers

/-!
# Values in the arena

A value takes the bytes of its kind and no others. It is read back where it was stored, and cleared
bytes read as the default of every kind but references.
-/

namespace ObjectMachine
namespace Arena

def setValue (arena : Arena) (pos : Nat) : Value → Arena
  | .bool b => arena.setByte pos (if b then 1 else 0)
  | value => arena.setWord pos (Memory.wordOfValue value)

@[simp] theorem size_setValue (arena : Arena) (pos : Nat) (value : Value) :
    (arena.setValue pos value).size = arena.size := by
  cases value <;> simp [setValue]

theorem agreeOn_setValue (arena : Arena) {pos first limit : Nat} (value : Value)
    (outside : limit ≤ pos ∨ pos + value.kind.width ≤ first) :
    AgreeOn (arena.setValue pos value) arena first limit := by
  cases value with
  | bool b => exact agreeOn_setByte _ _ outside
  | char c => exact agreeOn_setWord _ _ outside
  | int i => exact agreeOn_setWord _ _ outside
  | str s => exact agreeOn_setWord _ _ outside
  | ref addr => exact agreeOn_setWord _ _ outside

end Arena

namespace Memory

theorem kind_of_valueOfWord {kind : Kind} {pos : Nat} {word : UInt32} {value : Value}
    (read : valueOfWord kind pos word = .ok value) : value.kind = kind := by
  cases kind with
  | bool =>
      cases read
      rfl
  | char =>
      unfold valueOfWord at read
      cases found : Word.toChar? word with
      | none => simp [found] at read
      | some c =>
          simp only [found] at read
          cases read
          rfl
  | int =>
      cases read
      rfl
  | str =>
      cases read
      rfl
  | ref =>
      cases read
      rfl

theorem kind_of_readValue {memory : Memory} {pos : Nat} {kind : Kind} {value : Value}
    (read : memory.readValue pos kind = .ok value) : value.kind = kind := by
  unfold readValue at read
  simp only at read
  split at read
  · exact kind_of_valueOfWord read
  · cases read

theorem readValue_congr {memory other : Memory} {pos : Nat} {kind : Kind}
    (agree : memory.arena.AgreeOn other.arena pos (pos + kind.width)) :
    memory.readValue pos kind = other.readValue pos kind := by
  cases kind with
  | bool =>
      have same := agree pos (Nat.le_refl _) (Nat.lt_succ_self _)
      simp only [readValue, same]
  | char =>
      have same := Arena.word?_congr agree
      simp only [readValue, same]
  | int =>
      have same := Arena.word?_congr agree
      simp only [readValue, same]
  | str =>
      have same := Arena.word?_congr agree
      simp only [readValue, same]
  | ref =>
      have same := Arena.word?_congr agree
      simp only [readValue, same]

theorem writeValue_eq_ok {memory : Memory} {pos : Nat} {value : Value}
    (inside : pos + value.kind.width ≤ memory.arena.size) :
    writeValue pos value memory =
      .ok () { memory with arena := memory.arena.setValue pos value } := by
  cases value with
  | bool b => exact if_pos inside
  | char c => exact if_pos inside
  | int i => exact if_pos inside
  | str s => exact if_pos inside
  | ref addr => exact if_pos inside

theorem readValue_setValue {memory other : Memory} {pos : Nat} {value : Value}
    (inside : pos + value.kind.width ≤ memory.arena.size)
    (stored : other.arena = memory.arena.setValue pos value) :
    other.readValue pos value.kind = .ok value := by
  cases value with
  | bool b =>
      have found : other.arena.byte? pos = some (if b then 1 else 0) := by
        rw [stored, Arena.setValue, Arena.byte?_setByte]
        exact if_pos ⟨rfl, inside⟩
      cases b <;> simp [readValue, Value.kind, found, valueOfWord]
  | char c =>
      have found : other.arena.word? pos = some c.val := by
        rw [stored]
        exact Arena.word?_setWord _ _ inside
      simp [readValue, Value.kind, found, valueOfWord]
  | int i =>
      have found : other.arena.word? pos = some i.toUInt32 := by
        rw [stored]
        exact Arena.word?_setWord _ _ inside
      simp [readValue, Value.kind, found, valueOfWord]
  | str s =>
      have found : other.arena.word? pos = some s.word := by
        rw [stored]
        exact Arena.word?_setWord _ _ inside
      simp [readValue, Value.kind, found, valueOfWord]
  | ref addr =>
      have found : other.arena.word? pos = some addr.word := by
        rw [stored]
        exact Arena.word?_setWord _ _ inside
      simp [readValue, Value.kind, found, valueOfWord]

theorem readValue_of_clear {memory : Memory} {pos : Nat} {kind : Kind} (other : kind ≠ .ref)
    (clear : ∀ i, pos ≤ i → i < pos + kind.width → memory.arena.byte? i = some 0) :
    memory.readValue pos kind = .ok kind.default := by
  have word : kind.width = 4 → memory.arena.word? pos = some 0 := by
    intro width
    rw [width] at clear
    rw [Arena.word?_eq_bind, clear pos (by omega) (by omega), clear (pos + 1) (by omega) (by omega),
      clear (pos + 2) (by omega) (by omega), clear (pos + 3) (by omega) (by omega)]
    rfl
  cases kind with
  | bool =>
      have found := clear pos (Nat.le_refl _) (Nat.lt_succ_self _)
      simp [readValue, found, valueOfWord, Kind.default]
  | char =>
      have found := word rfl
      simp only [readValue, found, valueOfWord, Kind.default]
      rfl
  | int =>
      have found := word rfl
      simp only [readValue, found, valueOfWord, Kind.default]
      rfl
  | str =>
      have found := word rfl
      simp only [readValue, found, valueOfWord, Kind.default]
      rfl
  | ref => exact absurd rfl other

end Memory
end ObjectMachine

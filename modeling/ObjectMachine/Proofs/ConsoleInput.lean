import ObjectMachine.Console
import ObjectMachine.Proofs.Agreement

/-!
# Console input

The input that is left is a sequence of bytes, some of which may have been decoded already. How
much has been decoded cannot be seen from outside: consoles with the same bytes left read the same.
Decoded characters are always the rest of one line, and the end of a line can be seen in its bytes.
-/

namespace ObjectMachine

/-!
## Encoded lines
-/

def encode (chars : List Char) : List UInt8 :=
  chars.flatMap String.utf8EncodeChar

theorem utf8Encode_eq (chars : List Char) : chars.utf8Encode = ⟨(encode chars).toArray⟩ := by
  apply ByteArray.ext
  exact List.data_toByteArray

@[simp] theorem encode_append (chars more : List Char) :
    encode (chars ++ more) = encode chars ++ encode more := by
  simp [encode]

theorem decode?_eq_some_iff {bytes : List UInt8} {chars : List Char} :
    Console.decode? bytes = some chars ↔ bytes = encode chars := by
  rw [Console.decode?, Option.map_eq_some_iff]
  constructor
  · intro found
    rcases found with ⟨text, decoded, rfl⟩
    unfold String.fromUTF8? at decoded
    split at decoded
    · next valid =>
        cases decoded
        have bytes' := String.utf8Encode_toList (b := String.fromUTF8 ⟨bytes.toArray⟩ valid)
        rw [utf8Encode_eq] at bytes'
        have same : (encode (String.fromUTF8 ⟨bytes.toArray⟩ valid).toList).toArray =
            bytes.toArray := congrArg ByteArray.data bytes'
        exact (List.toArray_inj same).symm
    · cases decoded
  · intro equal
    subst equal
    refine ⟨String.ofList chars, ?_, String.toList_ofList⟩
    have valid : ByteArray.IsValidUTF8 ⟨(encode chars).toArray⟩ :=
      ⟨chars, (utf8Encode_eq chars).symm⟩
    rw [String.fromUTF8?, dif_pos valid]
    congr 1
    apply String.toByteArray_inj.mp
    rw [String.toByteArray_ofList, utf8Encode_eq]
    rfl

theorem encode_inj {chars more : List Char} (same : encode chars = encode more) :
    chars = more := by
  have first := decode?_eq_some_iff.mpr (rfl : encode chars = _)
  rw [decode?_eq_some_iff.mpr same] at first
  cases first
  rfl

theorem toList_byteArray (bytes : ByteArray) : bytes.toList = bytes.data.toList := by
  have loop : ∀ (i : Nat) (before : List UInt8),
      ByteArray.toList.loop bytes i before = before.reverse ++ bytes.data.toList.drop i := by
    intro i before
    fun_induction ByteArray.toList.loop bytes i before with
    | case1 i before inside ih =>
        have here : bytes.get! i = bytes.data.toList[i] := getElem!_pos bytes.data i inside
        rw [ih, List.drop_eq_getElem_cons inside, List.reverse_cons, List.append_assoc,
          List.singleton_append, here]
    | case2 i before outside =>
        rw [List.drop_eq_nil_of_le (Nat.le_of_not_lt outside), List.append_nil]
  rw [ByteArray.toList, loop]
  simp

theorem toUTF8_ofList (text : List Char) : (String.ofList text).toUTF8.toList = encode text := by
  rw [toList_byteArray, String.toUTF8_eq_toByteArray, String.toByteArray_ofList, utf8Encode_eq]

theorem eq_newline_of_mem {c : Char} (mem : 10 ∈ String.utf8EncodeChar c) : c = '\n' := by
  have value : ∀ n, n < 256 → 10 = UInt8.ofNat n → n = 10 := by
    intro n less same
    have := congrArg UInt8.toNat same
    rw [UInt8.toNat_ofNat'] at this
    have ten : (10 : UInt8).toNat = 10 := rfl
    omega
  have high : ∀ n, 128 ≤ n → n < 256 → 10 ≠ UInt8.ofNat n := by
    intro n lower upper same
    have := value n upper same
    omega
  unfold String.utf8EncodeChar at mem
  simp only at mem
  split at mem
  · have code := value _ (by omega) (List.mem_singleton.mp mem)
    exact Char.ext (UInt32.toNat_inj.mp code)
  · -- All bytes of a longer encoding have their top bits set.
    split at mem
    · simp only [List.mem_cons, List.not_mem_nil, or_false] at mem
      rcases mem with same | same <;> exact absurd same (high _ (by omega) (by omega))
    · split at mem
      · simp only [List.mem_cons, List.not_mem_nil, or_false] at mem
        rcases mem with same | same | same <;> exact absurd same (high _ (by omega) (by omega))
      · simp only [List.mem_cons, List.not_mem_nil, or_false] at mem
        rcases mem with same | same | same | same <;>
          exact absurd same (high _ (by omega) (by omega))

theorem newline_mem_encode_iff {chars : List Char} : 10 ∈ encode chars ↔ '\n' ∈ chars := by
  simp only [encode, List.mem_flatMap]
  constructor
  · intro found
    rcases found with ⟨c, mem, byte⟩
    rw [← eq_newline_of_mem byte]
    exact mem
  · intro mem
    exact ⟨'\n', mem, by decide⟩

namespace Console

theorem splitLine_of_newline {front rest : List UInt8} (inside : 10 ∉ front) :
    splitLine (front ++ 10 :: rest) = (front ++ [10], rest) := by
  induction front with
  | nil => rfl
  | cons b front ih =>
      have other : b ≠ 10 := by
        intro same
        subst same
        exact inside List.mem_cons_self
      have later := ih fun mem => inside (List.mem_cons_of_mem _ mem)
      simp only [List.cons_append, splitLine, if_neg other, later]

theorem splitLine_of_last {bytes : List UInt8} (inside : 10 ∉ bytes) :
    splitLine bytes = (bytes, []) := by
  induction bytes with
  | nil => rfl
  | cons b rest ih =>
      have other : b ≠ 10 := by
        intro same
        subst same
        exact inside List.mem_cons_self
      have later := ih fun mem => inside (List.mem_cons_of_mem _ mem)
      simp only [splitLine, if_neg other, later]

theorem splitLine_cases (bytes : List UInt8) :
    bytes = (splitLine bytes).1 ++ (splitLine bytes).2 ∧
      ((∃ front, (splitLine bytes).1 = front ++ [10] ∧ 10 ∉ front) ∨
        (10 ∉ (splitLine bytes).1 ∧ (splitLine bytes).2 = [])) := by
  induction bytes with
  | nil => exact ⟨rfl, Or.inr ⟨List.not_mem_nil, rfl⟩⟩
  | cons b rest ih =>
      unfold splitLine
      split
      · next newline => exact ⟨rfl, Or.inl ⟨[], by rw [newline]; rfl, List.not_mem_nil⟩⟩
      · next other =>
          rcases ih with ⟨parts, ends⟩
          refine ⟨congrArg (b :: ·) parts, ?_⟩
          rcases ends with ⟨front, same, inside⟩ | ⟨inside, last⟩
          · refine Or.inl ⟨b :: front, congrArg (b :: ·) same, ?_⟩
            intro mem
            rcases List.mem_cons.mp mem with same | mem
            · exact other same.symm
            · exact inside mem
          · refine Or.inr ⟨?_, last⟩
            intro mem
            rcases List.mem_cons.mp mem with same | mem
            · exact other same.symm
            · exact inside mem

/-!
## The bytes that are left
-/

def remaining (console : Console) : List UInt8 :=
  encode console.pending ++ console.input

/-- The decoded characters are the rest of a line; only the last line may have no end. -/
def Lined (console : Console) : Prop :=
  console.pending = [] ∨ (∃ front, console.pending = front ++ ['\n'] ∧ '\n' ∉ front) ∨
    ('\n' ∉ console.pending ∧ console.input = [])

theorem lined_ofInput (input : List UInt8) : (ofInput input).Lined :=
  Or.inl rfl

theorem Lined.suffix {console : Console} (lined : console.Lined) {pending : List Char}
    (rest : pending <:+ console.pending) : ({ console with pending } : Console).Lined := by
  rcases lined with none | ⟨front, ends, inside⟩ | ⟨inside, last⟩
  · left
    rw [none] at rest
    exact List.suffix_nil.mp rest
  · cases pending with
    | nil => exact Or.inl rfl
    | cons c more =>
        right
        left
        rw [ends] at rest
        rcases List.suffix_concat_iff.mp rest with none | ⟨front', same, rest'⟩
        · cases none
        · refine ⟨front', same, ?_⟩
          intro mem
          exact inside (rest'.subset mem)
  · right
    right
    refine ⟨?_, last⟩
    intro mem
    exact inside (rest.subset mem)

theorem lined_of_decode {console : Console} {line : List Char}
    (decoded : decode? (splitLine console.input).1 = some line) :
    ({ console with pending := line, input := (splitLine console.input).2 } : Console).Lined := by
  have bytes := decode?_eq_some_iff.mp decoded
  rcases (splitLine_cases console.input).2 with ⟨front, same, inside⟩ | ⟨inside, last⟩
  · have mem : '\n' ∈ line := by
      rw [← newline_mem_encode_iff, ← bytes, same]
      simp
    rcases List.eq_append_cons_of_mem mem with ⟨before, behind, rfl, outside⟩
    have split := @splitLine_of_newline _ (encode behind) (mt newline_mem_encode_iff.mp outside)
    have whole : encode before ++ 10 :: encode behind = front ++ 10 :: [] := by
      rw [← same, bytes, encode_append]
      rfl
    rw [whole, splitLine_of_newline inside] at split
    have last : encode [] = encode behind := (Prod.mk.inj split).2
    right
    left
    refine ⟨before, ?_, outside⟩
    rw [← encode_inj last]
  · right
    right
    refine ⟨?_, last⟩
    rw [bytes, newline_mem_encode_iff] at inside
    exact inside

/-!
## Consoles that have decoded as much
-/

/-- Consoles that differ in what was written only, each with its output. -/
structure Twins (output output' : String) (console other : Console) : Prop where
  pending : console.pending = other.pending
  input : console.input = other.input
  lined : console.Lined
  left : console.output = output
  right : other.output = output'

variable {output output' : String} {console other : Console}

abbrev TwinsAgree {α : Type} (output output' : String) :
    EStateM.Result Error Console α → EStateM.Result Error Console α → Prop :=
  Agree (fun a b console other => a = b ∧ Twins output output' console other)
    (Twins output output') Never

theorem takeRun_twins (test : Char → Bool) (twins : Twins output output' console other) :
    TwinsAgree output output' (takeRun test console) (takeRun test other) := by
  rcases other with ⟨input, pending, out⟩
  rcases twins with ⟨rfl, rfl, lined, left, rfl⟩
  induction console using takeRun.induct test with
  | case1 console c rest stop =>
      rw [takeRun, takeRun]
      simp only [stop]
      refine .done ⟨rfl, rfl, rfl, lined.suffix ?_, left, rfl⟩
      rw [← stop]
      exact List.dropWhile_suffix test
  | case2 console stop empty =>
      rw [takeRun, takeRun]
      simp only [stop, dif_pos empty]
      exact .done ⟨rfl, rfl, rfl, Or.inl rfl, left, rfl⟩
  | case3 console stop more bad =>
      rw [takeRun, takeRun]
      simp only [stop, dif_neg more, bad]
      exact .failed id ⟨rfl, rfl, Or.inl rfl, left, rfl⟩
  | case4 console stop more line decoded rest after ran ih =>
      have later := ih (lined_of_decode decoded) left
      rw [takeRun, takeRun]
      simp only [stop, dif_neg more, decoded, ran]
      cases outcome : takeRun test ⟨(splitLine console.input).2, line, out⟩ with
      | ok rest' after' =>
          rw [ran, outcome] at later
          cases later with
          | done both =>
              rcases both with ⟨rfl, twins⟩
              exact .done ⟨rfl, twins⟩
      | error e after' =>
          rw [ran, outcome] at later
          cases later with
          | shortRight _ _ never => exact absurd never id
  | case5 console stop more line decoded e after ran ih =>
      have later := ih (lined_of_decode decoded) left
      rw [takeRun, takeRun]
      simp only [stop, dif_neg more, decoded, ran]
      cases outcome : takeRun test ⟨(splitLine console.input).2, line, out⟩ with
      | ok rest after' =>
          rw [ran, outcome] at later
          cases later with
          | shortLeft _ _ never => exact absurd never id
      | error e' after' =>
          rw [ran, outcome] at later
          cases later with
          | failed sound twins => exact .failed sound twins
          | shortError _ _ _ never => exact absurd never id

theorem peek_eq : peek = (do
    let _ ← takeRun fun _ => false
    return (← get).pending.head?) := by
  funext console
  cases ran : takeRun (fun _ => false) console with
  | ok run after =>
      rw [bind_of_ok ran, peek, ran]
      rfl
  | error e after =>
      rw [bind_of_error ran, peek, ran]

theorem peek_twins (twins : Twins output output' console other) :
    TwinsAgree output output' (peek console) (peek other) := by
  rw [peek_eq]
  apply (takeRun_twins _ twins).bind
  intro _ _ console other both
  rcases both with ⟨_, twins⟩
  exact .done ⟨congrArg List.head? twins.pending, twins⟩

theorem skip_twins (twins : Twins output output' console other) :
    TwinsAgree output output' (skip console) (skip other) := by
  refine .done ⟨rfl, congrArg List.tail twins.pending, twins.input, ?_, twins.left, twins.right⟩
  exact twins.lined.suffix (List.tail_suffix _)

theorem readChar_twins (twins : Twins output output' console other) :
    TwinsAgree output output' (readChar console) (readChar other) := by
  apply (peek_twins twins).bind
  intro next _ console other both
  rcases both with ⟨rfl, twins⟩
  cases next with
  | none => exact .done ⟨rfl, twins⟩
  | some c =>
      apply (skip_twins twins).bind
      intro _ _ console other both
      rcases both with ⟨_, twins⟩
      exact .done ⟨rfl, twins⟩

theorem readLine_twins (twins : Twins output output' console other) :
    TwinsAgree output output' (readLine console) (readLine other) := by
  apply (takeRun_twins _ twins).bind
  intro line _ console other both
  rcases both with ⟨rfl, twins⟩
  apply (skip_twins twins).bind
  intro _ _ console other both
  rcases both with ⟨_, twins⟩
  exact .done ⟨rfl, twins⟩

def readDigits (sign : List Char) : Op Int32 := do
  let digits ← takeRun Char.isDigit
  let numeral := sign ++ digits
  if numeral.isEmpty then
    throw (.io (.noInteger (← peek).isNone))
  else
    match Text.readInt32? numeral with
    | some value => return value
    | none => throw (.io (.notInt32 (String.ofList numeral)))

theorem readInt_eq : readInt = (do
    let _ ← takeRun Text.isBlank
    match ← peek with
    | some c =>
        if c = '-' ∨ c = '+' then
          skip
          readDigits [c]
        else
          readDigits []
    | none => readDigits []) := rfl

theorem readDigits_twins (sign : List Char) (twins : Twins output output' console other) :
    TwinsAgree output output' (readDigits sign console) (readDigits sign other) := by
  apply (takeRun_twins _ twins).bind
  intro digits _ console other both
  rcases both with ⟨rfl, twins⟩
  cases (sign ++ digits).isEmpty with
  | true =>
      simp only [if_true]
      apply (peek_twins twins).bind
      intro next _ console other both
      rcases both with ⟨rfl, twins⟩
      exact .failed id twins
  | false =>
      simp only [Bool.false_eq_true, if_false]
      cases Text.readInt32? (sign ++ digits) with
      | some value => exact .done ⟨rfl, twins⟩
      | none => exact .failed id twins

theorem readInt_twins (twins : Twins output output' console other) :
    TwinsAgree output output' (readInt console) (readInt other) := by
  rw [readInt_eq]
  apply (takeRun_twins _ twins).bind
  intro _ _ console other both
  rcases both with ⟨_, twins⟩
  apply (peek_twins twins).bind
  intro next _ console other both
  rcases both with ⟨rfl, twins⟩
  cases next with
  | none => exact readDigits_twins [] twins
  | some c =>
      by_cases signed : c = '-' ∨ c = '+'
      · simp only [if_pos signed]
        apply (skip_twins twins).bind
        intro _ _ console other both
        rcases both with ⟨_, twins⟩
        exact readDigits_twins [c] twins
      · simp only [if_neg signed]
        exact readDigits_twins [] twins

/-!
## Consoles with the same bytes left
-/

theorem Lined.splitLine_remaining (lined : console.Lined) (some : console.pending ≠ []) :
    splitLine console.remaining = (encode console.pending, console.input) := by
  unfold remaining
  rcases lined with none | ⟨front, ends, inside⟩ | ⟨inside, last⟩
  · exact absurd none some
  · have newline : encode ['\n'] = [10] := rfl
    rw [ends, encode_append, newline, List.append_assoc]
    exact splitLine_of_newline (mt newline_mem_encode_iff.mp inside)
  · rw [last, List.append_nil]
    exact splitLine_of_last (mt newline_mem_encode_iff.mp inside)

structure Loads (console loaded : Console) : Prop where
  used : console.pending = []
  more : console.input ≠ []
  line : splitLine console.input = (encode loaded.pending, loaded.input)
  output : console.output = loaded.output

theorem Loads.takeRun_eq (loads : console.Loads other) (test : Char → Bool) :
    takeRun test console = takeRun test other := by
  have decoded : decode? (splitLine console.input).1 = some other.pending := by
    rw [loads.line]
    exact decode?_eq_some_iff.mpr rfl
  rw [takeRun]
  simp only [loads.used, List.takeWhile_nil, List.dropWhile_nil, dif_neg loads.more, decoded]
  rw [loads.line, loads.output]
  cases takeRun test other with
  | ok run after => rfl
  | error e after => rfl

theorem Lined.loads (lined : other.Lined) (used : console.pending = [])
    (some : other.pending ≠ []) (same : console.remaining = other.remaining) :
    console.Loads { other with output := console.output } := by
  have bytes : console.input = other.remaining := by
    rw [← same, remaining, used]
    rfl
  have line := lined.splitLine_remaining some
  rw [← bytes] at line
  refine ⟨used, ?_, line, rfl⟩
  intro empty
  rw [empty] at line
  have none : encode [] = encode other.pending := (Prod.mk.inj line).1
  exact some (encode_inj none).symm

/-- Consoles with the same bytes left have decoded as much, or one of them goes on to the line of
the other. -/
theorem Lined.cases_of_remaining (left : console.Lined) (right : other.Lined)
    (same : console.remaining = other.remaining) :
    (console.pending = other.pending ∧ console.input = other.input) ∨
      console.Loads { other with output := console.output } ∨
      other.Loads { console with output := other.output } := by
  by_cases used : console.pending = []
  · by_cases used' : other.pending = []
    · left
      rw [used, used']
      simp only [remaining, used, used'] at same
      exact ⟨rfl, same⟩
    · exact Or.inr (Or.inl (right.loads used used' same))
  · by_cases used' : other.pending = []
    · exact Or.inr (Or.inr (left.loads used' used same.symm))
    · left
      have line := left.splitLine_remaining used
      rw [same, right.splitLine_remaining used'] at line
      rcases Prod.mk.inj line with ⟨chars, bytes⟩
      exact ⟨(encode_inj chars).symm, bytes.symm⟩

/-- Consoles with the same bytes left, to which the same was written after the given outputs. -/
structure Alike (base base' : String) (console other : Console) : Prop where
  left_lined : console.Lined
  right_lined : other.Lined
  remaining : console.remaining = other.remaining
  written : ∃ text, console.output = base ++ text ∧ other.output = base' ++ text

variable {base base' : String}

theorem Twins.alike {text : String}
    (twins : Twins (base ++ text) (base' ++ text) console other) :
    Alike base base' console other := by
  refine ⟨twins.lined, ?_, ?_, text, twins.left, twins.right⟩
  · have lined := twins.lined
    rw [Lined, twins.pending, twins.input] at lined
    exact lined
  · rw [Console.remaining, twins.pending, twins.input]
    rfl

theorem Alike.symm (alike : Alike base base' console other) : Alike base' base other console := by
  rcases alike.written with ⟨text, left, right⟩
  exact ⟨alike.right_lined, alike.left_lined, alike.remaining.symm, text, right, left⟩

/-- An operation that begins by decoding does not see how much has been decoded. -/
theorem Alike.reads {α : Type} {op : Op α} (alike : Alike base base' console other)
    (decodes : ∀ console loaded, Loads console loaded → op console = op loaded)
    (agrees : ∀ output output' console other, Twins output output' console other →
      TwinsAgree output output' (op console) (op other)) :
    Agree (fun a b console other => a = b ∧ Alike base base' console other) (Alike base base') Never
      (op console) (op other) := by
  rcases alike.written with ⟨text, left, right⟩
  have agree : TwinsAgree (base ++ text) (base' ++ text) (op console) (op other) := by
    rcases alike.left_lined.cases_of_remaining alike.right_lined alike.remaining with
      ⟨pending, input⟩ | loads | loads
    · exact agrees _ _ _ _ ⟨pending, input, alike.left_lined, left, right⟩
    · rw [decodes _ _ loads]
      exact agrees _ _ _ _ ⟨rfl, rfl, alike.right_lined, left, right⟩
    · rw [decodes _ _ loads]
      exact agrees _ _ _ _ ⟨rfl, rfl, alike.left_lined, left, right⟩
  refine agree.mono ?_ (fun _ _ => Twins.alike) (fun _ _ => id)
  intro a b console other both
  rcases both with ⟨same, twins⟩
  exact ⟨same, twins.alike⟩

theorem Alike.readChar (alike : Alike base base' console other) :
    Agree (fun a b console other => a = b ∧ Alike base base' console other) (Alike base base') Never
      (readChar console) (Console.readChar other) := by
  refine alike.reads ?_ fun _ _ _ _ => readChar_twins
  intro console loaded loads
  simp only [Console.readChar, peek_eq, bind, EStateM.bind, loads.takeRun_eq]

theorem Alike.readInt (alike : Alike base base' console other) :
    Agree (fun a b console other => a = b ∧ Alike base base' console other) (Alike base base') Never
      (readInt console) (Console.readInt other) := by
  refine alike.reads ?_ fun _ _ _ _ => readInt_twins
  intro console loaded loads
  simp only [Console.readInt, bind, EStateM.bind, loads.takeRun_eq]

theorem Alike.readLine (alike : Alike base base' console other) :
    Agree (fun a b console other => a = b ∧ Alike base base' console other) (Alike base base') Never
      (readLine console) (Console.readLine other) := by
  refine alike.reads ?_ fun _ _ _ _ => readLine_twins
  intro console loaded loads
  simp only [Console.readLine, bind, EStateM.bind, loads.takeRun_eq]

theorem Alike.write (alike : Alike base base' console other) (text : String) :
    Agree (fun a b console other => a = b ∧ Alike base base' console other) (Alike base base') Never
      (write text console) (Console.write text other) := by
  rcases alike.written with ⟨before, left, right⟩
  refine .done ⟨rfl, alike.left_lined, alike.right_lined, alike.remaining, before ++ text, ?_, ?_⟩
  · show console.output ++ text = base ++ (before ++ text)
    rw [left, String.append_assoc]
  · show other.output ++ text = base' ++ (before ++ text)
    rw [right, String.append_assoc]

end Console
end ObjectMachine

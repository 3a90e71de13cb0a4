import ObjectMachine.Proofs.CallInstructions

/-!
# Cycles

One cycle on alike machines ends in the same way and leaves alike machines, whatever the
instruction, unless a resource runs out or there are more strings than indices. In particular a
cycle of a sound machine leaves a sound machine.
-/

namespace ObjectMachine
namespace Machine

variable {program : Program} {origin origin' : Origin program} {pairing : Pairing}
  {machine other : Machine}

theorem settle_none {x y : Op Unit}
    (settles : MachinesSettle origin origin' (x machine) (y other)) :
    MachinesSettle origin origin' ((x >>= fun _ => pure (none : Option ExitStatus)) machine)
      ((y >>= fun _ => pure (none : Option ExitStatus)) other) :=
  settles.map fun _ _ _ _ both => ⟨rfl, both.2⟩

namespace Alike

theorem execute (alike : Alike origin origin' pairing machine other) {insn : Instruction}
    (suits : insn.Suits program.types program.strings) :
    MachinesSettle origin origin' (execute insn machine) (Machine.execute insn other) := by
  rcases insn with ⟨opcode, operand⟩
  cases opcode with
  | nop => exact .done ⟨rfl, Or.inl ⟨pairing, alike⟩⟩
  | ldcI4 =>
      cases operand with
      | int value => exact settle_none (alike.push (.int value))
      | _ => exact .failed id ⟨pairing, alike⟩
  | ldcC =>
      cases operand with
      | char value => exact settle_none (alike.push (.char value))
      | _ => exact .failed id ⟨pairing, alike⟩
  | ldcB =>
      cases operand with
      | bool value => exact settle_none (alike.push (.bool value))
      | _ => exact .failed id ⟨pairing, alike⟩
  | ldstr =>
      cases operand with
      | str ref => exact settle_none (alike.push (.str (alike.literal (suits.literal ref rfl))))
      | _ => exact .failed id ⟨pairing, alike⟩
  | ldnull => exact settle_none (alike.push (.ref (Or.inl ⟨rfl, rfl⟩)))
  | ldloc =>
      cases operand with
      | slot index => exact settle_none (alike.settleFrame fun frames => frames.loadLocal index)
      | _ => exact .failed id ⟨pairing, alike⟩
  | stloc =>
      cases operand with
      | slot index => exact settle_none (alike.settleFrame fun frames => frames.storeLocal index)
      | _ => exact .failed id ⟨pairing, alike⟩
  | ldarg =>
      cases operand with
      | slot index => exact settle_none (alike.settleFrame fun frames => frames.loadArg index)
      | _ => exact .failed id ⟨pairing, alike⟩
  | starg =>
      cases operand with
      | slot index => exact settle_none (alike.settleFrame fun frames => frames.storeArg index)
      | _ => exact .failed id ⟨pairing, alike⟩
  | ldthis => exact settle_none (alike.settleFrame Frame.Alike.loadThis)
  | ldfld =>
      cases operand with
      | field field =>
          rcases suits.field field rfl with ⟨c, known, place⟩
          have known' := Program.class?_eq_some_iff.mpr known
          exact settle_none (alike.loadField known' place)
      | _ => exact .failed id ⟨pairing, alike⟩
  | stfld =>
      cases operand with
      | field field =>
          rcases suits.field field rfl with ⟨c, known, place⟩
          have known' := Program.class?_eq_some_iff.mpr known
          exact settle_none (alike.storeField known' place)
      | _ => exact .failed id ⟨pairing, alike⟩
  | newobj =>
      cases operand with
      | type type => exact settle_none (alike.makeObject type)
      | _ => exact .failed id ⟨pairing, alike⟩
  | newarr =>
      cases operand with
      | type type => exact settle_none (alike.makeArray type)
      | _ => exact .failed id ⟨pairing, alike⟩
  | ldelem => exact settle_none alike.loadElement
  | stelem => exact settle_none alike.storeElement
  | ldlen => exact settle_none alike.loadLength
  | call =>
      cases operand with
      | method method => exact alike.call method false
      | _ => exact .failed id ⟨pairing, alike⟩
  | callvirt =>
      cases operand with
      | method method => exact alike.call method true
      | _ => exact .failed id ⟨pairing, alike⟩
  | ret => exact settle_none alike.ret
  | isinst =>
      cases operand with
      | type type => exact settle_none (alike.testInstance type)
      | _ => exact .failed id ⟨pairing, alike⟩
  | castclass =>
      cases operand with
      | type type => exact settle_none (alike.castInstance type)
      | _ => exact .failed id ⟨pairing, alike⟩
  | br =>
      cases operand with
      | branch offset => exact settle_none (alike.settleFrame fun frames => frames.jump offset)
      | _ => exact .failed id ⟨pairing, alike⟩
  | brtrue =>
      cases operand with
      | branch offset =>
          exact settle_none (alike.settleFrame fun frames => frames.jumpIf true offset)
      | _ => exact .failed id ⟨pairing, alike⟩
  | brfalse =>
      cases operand with
      | branch offset =>
          exact settle_none (alike.settleFrame fun frames => frames.jumpIf false offset)
      | _ => exact .failed id ⟨pairing, alike⟩
  | add => exact settle_none (alike.settleFrame fun frames => frames.calculation _)
  | sub => exact settle_none (alike.settleFrame fun frames => frames.calculation _)
  | mul => exact settle_none (alike.settleFrame fun frames => frames.calculation _)
  | div => exact settle_none (alike.settleFrame fun frames => frames.division _)
  | rem => exact settle_none (alike.settleFrame fun frames => frames.division _)
  | neg => exact settle_none (alike.settleFrame Frame.Alike.negate)
  | ceq => exact settle_none (alike.settleFrame fun frames => frames.equality _)
  | cne => exact settle_none (alike.settleFrame fun frames => frames.equality _)
  | clt => exact settle_none (alike.settleFrame fun frames => frames.comparison _)
  | cle => exact settle_none (alike.settleFrame fun frames => frames.comparison _)
  | cgt => exact settle_none (alike.settleFrame fun frames => frames.comparison _)
  | cge => exact settle_none (alike.settleFrame fun frames => frames.comparison _)
  | and => exact settle_none (alike.settleFrame fun frames => frames.logic _)
  | or => exact settle_none (alike.settleFrame fun frames => frames.logic _)
  | not => exact settle_none (alike.settleFrame Frame.Alike.negation)
  | convC => exact settle_none (alike.settleFrame Frame.Alike.toChar)
  | convI => exact settle_none (alike.settleFrame Frame.Alike.toInt)
  | pop => exact settle_none (alike.settleFrame Frame.Alike.drop)
  | dup => exact settle_none (alike.settleFrame Frame.Alike.duplicate)

theorem fetch (alike : Alike origin origin' pairing machine other) :
    MachinesAgree origin origin' pairing
      (fun insn insn' => insn = insn' ∧ insn.Suits program.types program.strings)
      (fetch machine) (Machine.fetch other) := by
  unfold Machine.fetch
  rw [alike.left_program, alike.right_program]
  rcases alike.frames_cases with
    ⟨none, none'⟩ | ⟨frame, frame', rest, rest', top, top', same, rests⟩
  · rw [none, none']
    exact .failed id ⟨pairing, alike⟩
  · simp only [top, top', same.method, same.ip]
    cases found : (program.method? frame.method).bind fun method => method.code[frame.ip]? with
    | none => exact .failed id ⟨pairing, alike⟩
    | some insn =>
        rcases Option.bind_eq_some_iff.mp found with ⟨method, known, at_ip⟩
        refine .done ⟨⟨rfl, origin.linked.suits _ method _ insn known at_ip⟩, { alike with
          left_program := rfl
          right_program := rfl
          frames := .cons ?_ rests }⟩
        exact ⟨rfl, rfl, same.receiver, same.args, same.locals, same.stack⟩

theorem step (alike : Alike origin origin' pairing machine other) :
    MachinesSettle origin origin' (step machine) (Machine.step other) := by
  apply alike.fetch.bind
  intro insn _ machine other both
  rcases both with ⟨⟨rfl, suits⟩, alike⟩
  apply (alike.note .trace _ _).bind
  intro _ _ machine other both
  rcases both with ⟨_, alike⟩
  exact alike.execute suits

end Alike
end Machine
end ObjectMachine

import BusMachine.Proofs.Instruction.Walk

/-!
Disassembly of programs. A walk over encoded instructions with the halt word behind them stays on
their boundaries, whatever their operands are.
-/
namespace BusMachine.Disassembly

variable {words : List Int} {a : Nat}

/-- The lines of instructions that stand one after the other from an address on. -/
def linesFrom : Nat → List Encoded → List Line
  | _, [] => []
  | a, e :: es => ⟨a, e.words, e.text⟩ :: linesFrom (a + e.opcode.size) es

theorem linesFrom_words (a : Nat) (es : List Encoded) :
    (linesFrom a es).map Line.words = es.map Encoded.words := by
  induction es generalizing a with
  | nil => rfl
  | cons e es ih => rw [linesFrom, List.map_cons, ih, List.map_cons]

theorem walk_encoded {es : List Encoded} {after : List Int} {stop : Int}
    (stand : words.drop a = (es.map Encoded.words).flatten ++ haltWord :: after)
    (early : (a + (es.map Encoded.words).flatten.length : Nat) < stop) :
    Walk words stop a
      (linesFrom a es ++
        [⟨(a + (es.map Encoded.words).flatten.length : Nat), [haltWord], "halt"⟩]) := by
  -- The address moves on to the next instruction, whose words begin what is left of the words.
  induction es generalizing a with
  | nil => exact .halt early ⟨after, stand.symm⟩
  | cons e es ih =>
    rw [List.map_cons, List.flatten_cons, List.append_assoc] at stand
    have whole : e.words <+: words.drop a := ⟨_, stand.symm⟩
    have later : words.drop (a + e.opcode.size) =
      (es.map Encoded.words).flatten ++ haltWord :: after := by
      rw [← List.drop_drop, stand, List.drop_left' e.words_length]
    have total : a + ((e :: es).map Encoded.words).flatten.length =
        a + e.opcode.size + (es.map Encoded.words).flatten.length := by
      rw [List.map_cons, List.flatten_cons, List.length_append, e.words_length, Nat.add_assoc]
    rw [total] at early ⊢
    have rest := ih later early
    have decodes := Decodes.whole e whole
    rw [linesFrom]
    rw [← e.words_length] at early rest decodes ⊢
    exact .onward (by omega) e.opcode.id_ne_haltWord whole e.text_ne_halt decodes rest

/-- The words of encoded instructions and the halt word behind them. -/
def program (es : List Encoded) : List Int := (es.map Encoded.words).flatten ++ [haltWord]

theorem program_length (es : List Encoded) :
    (program es).length = (es.map Encoded.words).flatten.length + 1 :=
  List.length_append

def programLines (es : List Encoded) : List Line :=
  linesFrom 0 es ++ [⟨(program es).length - 1, [haltWord], "halt"⟩]

theorem walk_program (es : List Encoded) :
    Walk (program es) (program es).length 0 (programLines es) := by
  have haltAddress : ((0 + (es.map Encoded.words).flatten.length : Nat) : Int) =
    (program es).length - 1 := by
    rw [program_length]
    omega
  have walk := @walk_encoded (program es) 0 es [] (program es).length rfl (by omega)
  rwa [haltAddress] at walk

theorem programLines_words (es : List Encoded) :
    (programLines es).flatMap Line.words = program es := by
  rw [programLines, List.flatMap_append, List.flatMap_def, linesFrom_words]
  rfl

end BusMachine.Disassembly

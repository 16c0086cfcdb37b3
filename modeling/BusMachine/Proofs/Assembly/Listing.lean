import BusMachine.Proofs.Assembly.History
import BusMachine.Proofs.Assembly.Symbols
import BusMachine.Proofs.Assembly.WritableWords
import BusMachine.Proofs.Instruction.Encoding
import BusMachine.Proofs.Text.Columns
import BusMachine.Proofs.Text.Newlines

/-!
Listings. The rows of the prologue, of the instructions and of the end show the words of the
executable one after the other, each of them once, and every label stands once, directly above the
row of its address.
-/
namespace BusMachine

open Text Grammar

namespace Listing

/-- Rows that show words one after the other, the first of them at that address. -/
inductive Consecutive : Nat → List Row → Prop where
  | nil {a : Nat} : Consecutive a []
  | cons {a : Nat} {r : Row} {rs : List Row} :
      r.address = some (a : Int) → Consecutive (a + r.words.length) rs → Consecutive a (r :: rs)

/-- The labels with the address of the row, in the order of their declaration. -/
def labelsAt (labels : List (String × Int)) (r : Row) : List (String × Int) :=
  labels.filter (fun l => some (l.2 + (ObjectProgram.prologueLength : Int)) == r.address)

/-- A row under the labels with its address. -/
def withLabels (labels : List (String × Int)) (r : Row) : List Row :=
  (labelsAt labels r).map labelRow ++ [r]

variable {words : List Int} {is : List Instruction}

/-- The rows of instructions, and that of the halt word behind them. -/
def codeRows (words : List Int) (is : List Instruction) : List Row :=
  is.map (instructionRow words) ++ [endRow words]

theorem slice_of_split {front code back : List Int} (split : words = front ++ code ++ back) :
    Position.slice words (front.length : Int) (front.length + code.length : Int) = code := by
  have inside : front.length ≤ words.length := by
    rw [split, List.append_assoc, List.length_append]
    omega
  have stand : code <+: words.drop front.length := by
    rw [split, List.append_assoc, List.drop_left]
    exact List.prefix_append _ _
  exact Position.slice_of_stands inside stand

/-- The rows of instructions that follow on those words show the words of the instructions, and the
end the last. -/
theorem codeRows_show {codes : List (List Int)}
    (lengths : List.Forall₂ (fun i c => c.length = i.size) is codes)
    {front : List Int} (split : words = front ++ codes.flatten ++ [haltWord])
    (offsets : ∀ (before : List Instruction) (i : Instruction) (after : List Instruction),
      is = before ++ i :: after →
      i.offset + ObjectProgram.prologueLength = (front.length + wordCount before : Nat)) :
    (codeRows words is).map Row.words = codes ++ [[haltWord]] ∧
      Consecutive front.length (codeRows words is) := by
  induction lengths generalizing front with
  | nil =>
    have length : (words.length : Int) - 1 = front.length := by
      rw [split]
      simp
    exact ⟨rfl, .cons (congrArg some length) .nil⟩
  | @cons i c is codes first _ ih =>
    have split' : words = (front ++ c) ++ codes.flatten ++ [haltWord] := by
      rw [split, List.flatten_cons]
      simp only [List.append_assoc]
    have here := offsets [] i is rfl
    rw [wordCount_nil, Nat.add_zero] at here
    have shown : (instructionRow words i).words = c := by
      rw [instructionRow]
      simp only [here, ← first]
      exact slice_of_split (by rw [split', List.append_assoc])
    obtain ⟨shows, consecutive⟩ := ih split' (fun before j after parts => by
      have there := offsets (i :: before) j after (by rw [parts, List.cons_append])
      rw [there, wordCount_cons, List.length_append, first, Nat.add_assoc])
    constructor
    · rw [codeRows, List.map_cons, List.cons_append, List.map_cons, shown, ← codeRows, shows,
        List.cons_append]
    · rw [codeRows, List.map_cons, List.cons_append, ← codeRows]
      refine .cons (congrArg some here) ?_
      rwa [shown, ← List.length_append]

theorem labelsAt_instructionRow (labels : List (String × Int)) (i : Instruction) :
    labelsAt labels (instructionRow words i) = labels.filter (·.2 == i.offset) := by
  refine List.filter_congr fun l _ => ?_
  rw [Bool.eq_iff_iff, beq_iff_eq, beq_iff_eq, instructionRow, Option.some.injEq]
  exact Int.add_left_inj _

/-- Labels that stand at another address make no difference. -/
theorem labelsAt_filter_ne (labels : List (String × Int)) {r : Row} {offset : Int}
    (apart : r.address ≠ some (offset + ObjectProgram.prologueLength)) :
    labelsAt (labels.filter (·.2 != offset)) r = labelsAt labels r := by
  rw [labelsAt, labelsAt, List.filter_filter]
  refine List.filter_congr fun l _ => ?_
  rw [Bool.and_eq_left_iff_imp]
  intro same
  rw [bne_iff_ne]
  rintro rfl
  exact apart (eq_of_beq same).symm

theorem mem_codeRows_address {start : Nat}
    (offsets : ∀ (before : List Instruction) (i : Instruction) (after : List Instruction),
      is = before ++ i :: after →
      i.offset = (start + wordCount before : Nat))
    (stop : (words.length : Int) - 1 = (start + wordCount is : Nat) + ObjectProgram.prologueLength)
    {r : Row}
    (mem : r ∈ codeRows words is) :
    ∃ n : Nat, start ≤ n ∧ r.address = some ((n : Int) + ObjectProgram.prologueLength) := by
  rcases List.mem_append.mp mem with mem | mem
  · obtain ⟨i, hi, rfl⟩ := List.mem_map.mp mem
    obtain ⟨before, after, parts⟩ := List.append_of_mem hi
    refine ⟨start + wordCount before, Nat.le_add_right _ _, ?_⟩
    rw [instructionRow, offsets before i after parts]
  · cases List.mem_singleton.mp mem
    exact ⟨start + wordCount is, Nat.le_add_right _ _, congrArg some stop⟩

/-- Every label stands once, above the row of its address. -/
theorem bodyRows_end {labels : List (String × Int)} {start : Nat}
    (offsets : ∀ (before : List Instruction) (i : Instruction) (after : List Instruction),
      is = before ++ i :: after →
      i.offset = (start + wordCount before : Nat))
    (stop : (words.length : Int) - 1 = (start + wordCount is : Nat) + ObjectProgram.prologueLength)
    (marks : ∀ l ∈ labels, ∃ before after, is = before ++ after ∧
      l.2 = (start + wordCount before : Nat)) :
    bodyRows words labels is ++ [endRow words] = (codeRows words is).flatMap (withLabels labels) ∧
      ((codeRows words is).flatMap (labelsAt labels)).Perm labels := by
  induction is generalizing labels start with
  | nil =>
    have last : ∀ l ∈ labels, l.2 = start := by
      intro l hl
      obtain ⟨before, after, parts, offset⟩ := marks l hl
      rw [(List.append_eq_nil_iff.mp parts.symm).1] at offset
      exact offset
    have sorted : labels.mergeSort (fun a b => a.2 ≤ b.2) = labels := by
      refine List.mergeSort_of_pairwise (List.pairwise_of_forall_mem_list fun a ha b hb => ?_)
      rw [last a ha, last b hb]
      exact decide_eq_true (Int.le_refl _)
    have all : labelsAt labels (endRow words) = labels := by
      refine List.filter_eq_self.mpr fun l hl => beq_iff_eq.mpr ?_
      rw [last l hl]
      exact congrArg some stop.symm
    rw [bodyRows, sorted, codeRows, List.map_nil, List.nil_append, List.flatMap_singleton,
      List.flatMap_singleton, withLabels, all]
    exact ⟨rfl, .refl _⟩
  | cons i is ih =>
    have here : i.offset = start := offsets [] i is rfl
    have offsets' : ∀ (before : List Instruction) (j : Instruction) (after : List Instruction),
        is = before ++ j :: after → j.offset = (start + i.size + wordCount before : Nat) := by
      intro before j after parts
      rw [offsets (i :: before) j after (by rw [parts, List.cons_append]), wordCount_cons,
        Nat.add_assoc]
    have stop' : (words.length : Int) - 1 =
      (start + i.size + wordCount is : Nat) + ObjectProgram.prologueLength := by
      rw [stop, wordCount_cons, Nat.add_assoc]
    have marks' : ∀ l ∈ labels.filter (·.2 != i.offset),
        ∃ before after, is = before ++ after ∧ l.2 = (start + i.size + wordCount before : Nat) := by
      intro l hl
      obtain ⟨hl, other⟩ := List.mem_filter.mp hl
      obtain ⟨before, after, parts, offset⟩ := marks l hl
      cases before with
      | nil =>
        rw [offset, here] at other
        simp at other
      | cons j before =>
        obtain ⟨rfl, rest⟩ := List.cons.inj parts
        exact ⟨before, after, rest, by rw [offset, wordCount_cons, Nat.add_assoc]⟩
    obtain ⟨rows, once⟩ := ih offsets' stop' marks'
    -- Behind this instruction no row has its address, so the labels that stand here are not missed
    -- there.
    have apart : ∀ r ∈ codeRows words is,
      labelsAt (labels.filter (·.2 != i.offset)) r = labelsAt labels r := by
      intro r hr
      obtain ⟨n, beyond, address⟩ := mem_codeRows_address offsets' stop' hr
      refine labelsAt_filter_ne labels ?_
      rw [address, here, ne_eq, Option.some.injEq]
      rw [Instruction.size] at beyond
      omega
    have first : codeRows words (i :: is) = instructionRow words i :: codeRows words is := rfl
    have later : (codeRows words is).flatMap (withLabels (labels.filter (·.2 != i.offset))) =
        (codeRows words is).flatMap (withLabels labels) :=
      List.flatMap_congr fun r hr => by rw [withLabels, withLabels, apart r hr]
    rw [List.flatMap_congr apart] at once
    rw [first, List.flatMap_cons, List.flatMap_cons, withLabels, labelsAt_instructionRow, bodyRows,
      ← later, ← rows]
    refine ⟨by simp, ?_⟩
    exact (once.append_left _).trans (List.filter_append_perm _ labels)

/-- A text without a line feed. -/
def OneLine (s : String) : Prop := '\n' ∉ s.toList

instance (s : String) : Decidable (OneLine s) := inferInstanceAs (Decidable ('\n' ∉ s.toList))

theorem oneLine_append {s t : String} (hs : OneLine s) (ht : OneLine t) : OneLine (s ++ t) := by
  rw [OneLine, String.toList_append, List.mem_append]
  exact fun mem => mem.elim hs ht

theorem oneLine_intercalate {ss : List String} (all : ∀ s ∈ ss, OneLine s) :
    OneLine (" ".intercalate ss) := by
  rw [OneLine, String.toList_intercalate]
  intro mem
  refine forall_mem_intercalate (p := fun c =>
    c ≠ '\n') (List.forall_mem_singleton.mpr (by decide)) ?_ '\n' mem rfl
  rintro l hl c hc rfl
  obtain ⟨s, hs, rfl⟩ := List.mem_map.mp hl
  exact all s hs hc

theorem oneLine_toString (n : Int) : OneLine (toString n) := by
  intro mem
  have decimal := decimal_toString n
  have digit : ∀ {ds : List Char}, Digits ds → '\n' ∉ ds :=
    fun digits mem => isDigit_ne (digits.2 _ mem) rfl rfl
  generalize (toString n).toList = cs at decimal mem
  cases decimal with
  | plain digits => exact digit digits mem
  | plus digits => exact digit digits ((List.mem_cons.mp mem).resolve_left (by decide))
  | minus digits => exact digit digits ((List.mem_cons.mp mem).resolve_left (by decide))

theorem oneLine_columns {a w s : String} (ha : OneLine a) (hw : OneLine w) (hs : OneLine s) :
    OneLine (columns a w s) := by
  have right : OneLine (alignRight 6 a) :=
    fun mem => (eq_blank_or_mem mem).elim (fun pad => absurd pad (by decide)) ha
  have left : OneLine (alignLeft 16 w) := by
    rw [OneLine, alignLeft, String.toList_ofList, List.rightpad, List.mem_append]
    exact fun mem => mem.elim hw (fun pad => absurd (List.eq_of_mem_replicate pad) (by decide))
  have gap : OneLine "  " := by decide
  exact oneLine_append (oneLine_append (oneLine_append (oneLine_append right gap) left) gap) hs

theorem oneLine_text {r : Row} (source : OneLine r.source) : OneLine r.text := by
  refine oneLine_columns ?_ ?_ source
  · cases r.address with
    | none => exact List.not_mem_nil
    | some a => exact oneLine_toString a
  · refine oneLine_intercalate fun s hs => ?_
    obtain ⟨w, -, rfl⟩ := List.mem_map.mp hs
    exact oneLine_toString w

theorem lines_of_rows {rows : List Row} (sources : ∀ r ∈ rows, OneLine r.source) :
    splitLines ("\n".intercalate (header ++ rows.map Row.text)).toList =
      (header ++ rows.map Row.text).map String.toList := by
  have heading : ∀ s ∈ header, OneLine s := by decide
  rw [String.toList_intercalate]
  refine splitLines_intercalate (List.cons_ne_nil _ _) fun l hl => ?_
  obtain ⟨s, hs, rfl⟩ := List.mem_map.mp hl
  rcases List.mem_append.mp hs with hs | hs
  · exact heading s hs
  · obtain ⟨r, hr, rfl⟩ := List.mem_map.mp hs
    exact oneLine_text (sources r hr)

end Listing

namespace Draft

variable {source : String} {done : List Statement} {s : Statement} {d d' : Draft}

/-- What a draft has of the text itself: raw lines of statements, and no name of a label twice. -/
structure Sourced (done : List Statement) (d : Draft) : Prop where
  raws : ∀ i ∈ d.instructions, ∃ s ∈ done, i.line = s.line ∧ i.raw = s.raw
  labels : (d.labels.map Prod.fst).Nodup

theorem sourced_empty : Sourced [] {} where
  raws _ mem := by cases mem
  labels := List.nodup_nil

theorem Sourced.later (h : Sourced done d) (s : Statement) : Sourced (done ++ [s]) d where
  raws i hi := (h.raws i hi).imp (fun _ found => ⟨List.mem_append_left _ found.1, found.2⟩)
  labels := h.labels

theorem Sourced.add (h : Sourced done d) (step : d.Adds s d') : Sourced (done ++ [s]) d' := by
  cases step with
  | declaredLabel _ _ => exact ⟨(h.later s).raws, h.labels⟩
  | repeatedLabel _ _ _ => exact ⟨(h.later s).raws, h.labels⟩
  | @label name _ _ new =>
    refine ⟨(h.later s).raws, ?_⟩
    rw [List.map_append, List.nodup_append]
    refine ⟨h.labels, List.nodup_singleton _, ?_⟩
    rintro other mem _ last rfl
    cases List.mem_singleton.mp last
    have known : d.isLabel name = true := (d.isLabel_iff name).mpr mem
    rw [known] at new
    cases new
  | instruction _ _ =>
    refine ⟨fun i hi => ?_, h.labels⟩
    rcases List.mem_append.mp hi with hi | hi
    · exact (h.later s).raws i hi
    · cases List.mem_singleton.mp hi
      exact ⟨s, List.mem_append_right _ (List.mem_singleton.mpr rfl), rfl, rfl⟩
  | unknown _ _ => exact ⟨(h.later s).raws, h.labels⟩

theorem Sourced.declare (h : Sourced done d) (step : d.Declares s d') :
    Sourced (done ++ [s]) d' := by
  cases step with
  | again _ => exact ⟨(h.later s).raws, h.labels⟩
  | fresh _ => exact ⟨(h.later s).raws, h.labels⟩

theorem sourced_ofSource (h : ofSource source = (d, none)) :
    Sourced (Statement.ofSource source) d := by
  have declared : Sourced (divided source).1 ((divided source).1.foldl Draft.declare {}) :=
    declareAll_induction (P := Sourced) (fun _ _ _ _ before step =>
      before.declare step) (divided source).1 sourced_empty
  exact divided_append source ▸
    addAll_induction (fun _ _ _ _ before step => before.add step) (fun _ =>
      unended_divided) declared h

end Draft

namespace Listing

theorem Consecutive.mem_address {a : Nat} {rs : List Row} (h : Consecutive a rs) {r : Row}
    (mem : r ∈ rs) :
    ∃ n : Nat, r.address = some (n : Int) ∧ n ≤ a + (rs.flatMap Row.words).length := by
  induction h with
  | nil => cases mem
  | @cons a first rs address _ ih =>
    rw [List.flatMap_cons, List.length_append]
    rcases List.mem_cons.mp mem with rfl | mem
    · exact ⟨a, address, Nat.le_add_right _ _⟩
    · obtain ⟨n, address, bound⟩ := ih mem
      exact ⟨n, address, by omega⟩

theorem oneLine_identifier {name : String} (h : Identifier name) : OneLine name := by
  intro mem
  have kind := h.alphanum _ mem
  cases kind

/-- The row of an instruction shows its line of the source text, without the blanks around it, up to
the fortieth character. -/
structure ShowsInstruction (source : String) (i : Instruction) (r : Row) : Prop where
  address : r.address = some (i.offset + 6)
  line : ∃ number line, i.line = (number : Nat) ∧ RawLine source number line ∧
    r.source = String.ofList ((trim line).take 40)

/-- A text from which the row is read: its address, its words with blanks between them, and its
source, in columns with two blanks between them. -/
def Row.ReadFrom (line : String) (r : Row) : Prop :=
  ∃ label column, line = label ++ "  " ++ column ++ "  " ++ r.source ∧
    List.Forall₂ Decimal (Text.words label.toList) r.address.toList ∧
    List.Forall₂ Decimal (Text.words column.toList) r.words

theorem Row.readFrom_text (r : Row) : r.ReadFrom r.text := by
  refine ⟨_, _, rfl, ?_, ?_⟩
  · rw [words_alignRight]
    cases r.address with
    | none => exact .nil
    | some a =>
      rw [Option.elim_some, words_toString]
      exact .cons (decimal_toString a) .nil
  · rw [words_alignLeft]
    exact decimal_words r.words

/-- The rows of a listing, of which `halves` show the prologue and `code` the instructions and
the halt word. -/
structure Shows (source : String) (size : Int) (words : List Int) (p : ObjectProgram)
    (halves code rows : List Row) :
    Prop where
  rows_eq : rows = p.variableNames.zipIdx.map (fun e => ⟨some (size - 1 - (e.2 : Int)), [], e.1⟩) ++
    halves ++
    code.flatMap (withLabels p.labels)
  halves_eq : halves = [⟨some 0, words.take 3, "<prologue: %stkbot>"⟩,
    ⟨some 3, (words.drop 3).take 3, "<prologue: %stktop>"⟩]
  code_eq : ∃ steps, code = steps ++ [⟨some ((words.length : Int) - 1), [-1], "<end>"⟩] ∧
    List.Forall₂ (ShowsInstruction source) p.instructions steps
  words_eq : (halves ++ code).flatMap Row.words = words
  consecutive : Consecutive 0 (halves ++ code)
  labels_once : (code.flatMap (labelsAt p.labels)).Perm p.labels
  labels_nodup : (p.labels.map Prod.fst).Nodup
  resolved : ∀ l ∈ p.labels, (p.symbols size).lookup l.1 = some (l.2 + 6)

namespace Shows

variable {source : String} {size : Int} {words : List Int} {p : ObjectProgram}
  {halves code rows : List Row}

theorem mem_cases (h : Shows source size words p halves code rows) {r : Row} (mem : r ∈ rows) :
    (∃ name, ∃ k : Nat, p.variableNames[k]? = some name ∧
      r = ⟨some (size - 1 - (k : Int)), [], name⟩) ∨
      r ∈ halves ++ code ∨ ∃ l ∈ p.labels, r = labelRow l := by
  rw [h.rows_eq, List.append_assoc, List.mem_append, List.mem_append] at mem
  rcases mem with mem | mem | mem
  · obtain ⟨⟨name, k⟩, hk, rfl⟩ := List.mem_map.mp mem
    exact .inl ⟨name, k, List.mem_zipIdx_iff_getElem?.mp hk, rfl⟩
  · exact .inr (.inl (List.mem_append_left _ mem))
  · obtain ⟨step, hstep, mem⟩ := List.mem_flatMap.mp mem
    rcases List.mem_append.mp mem with mem | mem
    · obtain ⟨l, hl, rfl⟩ := List.mem_map.mp mem
      exact .inr (.inr ⟨l, (List.mem_filter.mp hl).1, rfl⟩)
    · cases List.mem_singleton.mp mem
      exact .inr (.inl (List.mem_append_right _ hstep))

/-- All numbers of the rows are words, addresses of words or addresses of variables. -/
theorem isWritable (h : Shows source size words p halves code rows)
    (writable : Numeral.isWritable size = true) (fits : words.length ≤ p.variableBase size)
    (all : ∀ w ∈ words, Numeral.isWritable w = true) :
    rows.all Row.isWritable = true := by
  have base : p.variableBase size = size - p.variableNames.length := rfl
  refine List.all_eq_true.mpr fun r hr => ?_
  rcases h.mem_cases hr with ⟨name, k, at_k, rfl⟩ | mem | ⟨l, -, rfl⟩
  · obtain ⟨bound, -⟩ := List.getElem?_eq_some_iff.mp at_k
    have address : Numeral.isWritable (size - 1 - (k : Int)) = true :=
      Numeral.isWritable_of_le (by omega) writable
    simp [Row.isWritable, address]
  · obtain ⟨n, address, bound⟩ := h.consecutive.mem_address mem
    rw [h.words_eq] at bound
    have small : Numeral.isWritable (n : Int) = true := Numeral.isWritable_of_le (by omega) writable
    have shown : ∀ w ∈ r.words, Numeral.isWritable w = true := fun w hw =>
      all w (h.words_eq ▸ List.mem_flatMap.mpr ⟨r, mem, hw⟩)
    simpa [Row.isWritable, address, small] using shown
  · rfl

theorem oneLine_step {i : Instruction} {r : Row} (h : ShowsInstruction source i r) :
    OneLine r.source := by
  obtain ⟨number, line, -, raw, shown⟩ := h.line
  rw [shown, OneLine, String.toList_ofList]
  intro mem
  have whole : '\n' ∉ line := not_mem_of_splitLines (List.mem_of_getElem? raw.2)
  exact whole (mem_of_mem_trim (List.mem_of_mem_take mem))

theorem oneLine (h : Shows source size words p halves code rows)
    (names : ∀ name ∈ p.variableNames, Identifier name) (labels : ∀ l ∈ p.labels, Identifier l.1)
    {r : Row} (mem : r ∈ rows) : OneLine r.source := by
  rcases h.mem_cases mem with ⟨name, k, at_k, rfl⟩ | mem | ⟨l, hl, rfl⟩
  · exact oneLine_identifier (names name (List.mem_of_getElem? at_k))
  · rcases List.mem_append.mp mem with mem | mem
    · rw [h.halves_eq] at mem
      rcases List.mem_pair.mp mem with rfl | rfl
      · show OneLine "<prologue: %stkbot>"
        decide
      · show OneLine "<prologue: %stktop>"
        decide
    · obtain ⟨steps, rfl, shows⟩ := h.code_eq
      rcases List.mem_append.mp mem with mem | mem
      · obtain ⟨k, bound, rfl⟩ := List.getElem_of_mem mem
        exact oneLine_step (shows.get (shows.length_eq ▸ bound) bound)
      · cases List.mem_singleton.mp mem
        show OneLine "<end>"
        decide
  · exact oneLine_append (oneLine_identifier (labels l hl)) (by decide)

end Shows

end Listing

namespace ObjectProgram.Assembled

variable {p : ObjectProgram} {size : Int} {words : List Int} {codes : List (List Int)}

theorem lookup_label (h : p.Assembled size words codes) (nodup : (p.labels.map Prod.fst).Nodup)
    {l : String × Int} (mem : l ∈ p.labels) : (p.symbols size).lookup l.1 = some (l.2 + 6) :=
  lookup_symbols_iff.mpr (.label (h.labels l.1 l.2 mem).1 (SymbolTable.lookup_of_mem nodup mem))

theorem offset_eq (h : p.Assembled size words codes) {before after : List Instruction}
    {i : Instruction} (parts : p.instructions = before ++ i :: after) :
    i.offset = (0 + wordCount before : Nat) := by
  rw [h.offsets before i after parts, Nat.zero_add]

theorem label_marks (h : p.Assembled size words codes) {l : String × Int} (mem : l ∈ p.labels) :
    ∃ before after, p.instructions = before ++ after ∧ l.2 = (0 + wordCount before : Nat) := by
  obtain ⟨before, after, parts, offset⟩ := (h.labels l.1 l.2 mem).2
  refine ⟨before, after, parts, ?_⟩
  rw [prologueLength_eq] at offset
  omega

end ObjectProgram.Assembled

namespace Listing

variable {source : String} {size : Int} {words : List Int} {p : ObjectProgram}
  {codes : List (List Int)}

theorem prologueRow_stkbot (h : p.Assembled size words codes) :
    prologueRow words 0 .stkbot = ⟨some 0, [9, p.variableBase size, 7], "<prologue: %stkbot>"⟩ := by
  have parts : words = [] ++ [9, p.variableBase size, 7] ++
    ([9, p.variableBase size, 6] ++ (codes.flatten ++ [-1])) := by
    rw [h.split, List.append_assoc]
    rfl
  have shown : Position.slice words 0 3 = [9, p.variableBase size, 7] := slice_of_split parts
  exact congrArg (fun shown => Row.mk (some 0) shown "<prologue: %stkbot>") shown

theorem prologueRow_stktop (h : p.Assembled size words codes) :
    prologueRow words 1 .stktop = ⟨some 3, [9, p.variableBase size, 6], "<prologue: %stktop>"⟩ := by
  have parts : words =
      [9, p.variableBase size, 7] ++ [9, p.variableBase size, 6] ++ (codes.flatten ++ [-1]) := by
    rw [h.split, List.append_assoc]
    rfl
  have shown : Position.slice words 3 6 = [9, p.variableBase size, 6] := slice_of_split parts
  exact congrArg (fun shown => Row.mk (some 3) shown "<prologue: %stktop>") shown

theorem codeRows_assembled (h : p.Assembled size words codes) :
    (codeRows words p.instructions).map Row.words = codes ++ [[haltWord]] ∧
      Consecutive 6 (codeRows words p.instructions) := by
  refine codeRows_show (h.encoded.imp (fun _ _ encodes => encodes.length)) h.split
    fun before i after parts => ?_
  rw [h.offset_eq parts]
  show ((0 + wordCount before : Nat) : Int) + 6 = (6 + wordCount before : Nat)
  omega

theorem bodyRows_assembled (h : p.Assembled size words codes) :
    bodyRows words p.labels p.instructions ++ [endRow words] =
        (codeRows words p.instructions).flatMap (withLabels p.labels) ∧
      ((codeRows words p.instructions).flatMap (labelsAt p.labels)).Perm p.labels := by
  refine bodyRows_end (fun _ _ _ => h.offset_eq) ?_ (fun _ => h.label_marks)
  rw [h.length_eq, ObjectProgram.prologueLength_eq]
  omega

theorem rows_show (h : p.Assembled size words codes) (names : p.variableNames.Nodup)
    (labels : (p.labels.map Prod.fst).Nodup)
    (lines : ∀ i ∈ p.instructions, ∃ number line, i.line = (number : Nat) ∧
      RawLine source number line ∧
      trimmed i.raw = String.ofList (trim line)) :
    Shows source size words p
      [prologueRow words 0 .stkbot, prologueRow words 1 .stktop] (codeRows words p.instructions)
      (rows p words size) where
  rows_eq := by
    rw [rows, ObjectProgram.variableAddresses_eq names, List.map_map, List.append_assoc,
      (bodyRows_assembled h).1]
    rfl
  halves_eq := by
    rw [prologueRow_stkbot h, prologueRow_stktop h, h.split]
    rfl
  code_eq := by
    refine ⟨_, rfl, List.forall₂_map_right_iff.mpr (List.forall₂_same.mpr fun i hi => ⟨rfl, ?_⟩)⟩
    obtain ⟨number, line, at_line, raw, shown⟩ := lines i hi
    have same : trim i.raw.toList = trim line := String.ofList_injective shown
    exact ⟨number, line, at_line, raw, by rw [instructionRow, same]⟩
  words_eq := by
    rw [List.flatMap_def, List.map_append, (codeRows_assembled h).1, List.map_cons,
      List.map_singleton, prologueRow_stkbot h, prologueRow_stktop h, List.flatten_append,
        List.flatten_append, ← List.append_assoc]
    exact h.split.symm
  consecutive := by
    rw [prologueRow_stkbot h, prologueRow_stktop h]
    exact .cons rfl (.cons rfl (codeRows_assembled h).2)
  labels_once := (bodyRows_assembled h).2
  labels_nodup := labels
  resolved l hl := h.lookup_label labels hl

end Listing

namespace Assembler

open Listing

/-- A listing shows the executable exactly once. It has a heading, a row for each variable, for both
halves of the prologue, for each instruction, for each label and for the halt word. It is written if
all numbers of its rows can be, and these can if the memory size can. -/
theorem listing_shows_executable {a b : Assembler} {source : String} {words : List Int}
    {ops : List AssemblerOperation} (assembled : (b.assemble source).2 = .ok words)
    (fruitless : (b.assemble source).1.Fruitless ops) (later : a = (b.assemble source).1.after ops)
    (size : a.memorySize = b.memorySize) :
    ∃ p halves code rows text, (b.parse source).2 = .ok p ∧ a.program = some p ∧
      a.executable = words ∧
      Shows source a.memorySize words p halves code rows ∧
      splitLines text.toList = (header ++ rows.map Row.text).map String.toList ∧
      List.Forall₂ Row.ReadFrom (rows.map Row.text) rows ∧
      a.listing = (if rows.all Row.isWritable then .ok text else .error .unwritable) ∧
      (Numeral.isWritable a.memorySize = true → rows.all Row.isWritable = true) := by
  obtain ⟨p, parsed, linked, kept⟩ := assemble_outputs_of_ok assembled
  have outputs : a.outputs = (some p, words) := later ▸ fruitless.outputs.trans kept
  obtain ⟨d, finished, clean, rfl⟩ := parse_ok parsed
  obtain ⟨codes, linked⟩ := ObjectProgram.assembled_of_link finished clean linked
  rw [← size] at linked
  obtain ⟨steps, records⟩ := Draft.records_ofSource finished clean
  have good := (Draft.reflects_ofSource finished).clean_iff.mp clean
  have sourced := Draft.sourced_ofSource finished
  have names : d.program.variableNames = (Draft.divided source).1.map Statement.text :=
    records.names
  have identifiers : ∀ name ∈ d.program.variableNames, Identifier name := by
    intro name mem
    rw [names] at mem
    obtain ⟨s, hs, rfl⟩ := List.mem_map.mp mem
    exact ((Draft.divides source).declared s hs).1
  have labelled : ∀ l ∈ d.program.labels, Identifier l.1 := by
    intro l hl
    obtain ⟨s, -, label, -⟩ := records.labels l.1 l.2 hl
    exact label.1
  have lines : ∀ i ∈ d.program.instructions, ∃ number line, i.line = (number : Nat) ∧
    RawLine source number line ∧
      trimmed i.raw = String.ofList (trim line) := by
    intro i hi
    obtain ⟨s, hs, line, raw⟩ := sourced.raws i hi
    obtain ⟨l, at_line, -⟩ := ((Statement.statements_ofSource source).complete s).mp hs
    exact ⟨s.line, l, line, at_line, raw ▸ Statement.trimmed_raw hs at_line⟩
  have shows := rows_show linked (names ▸ declarations_nodup good) sourced.labels lines
  refine ⟨d.program, _, _, _, _, parsed, congrArg Prod.fst outputs, congrArg Prod.snd outputs,
    shows,
    lines_of_rows (fun r hr => shows.oneLine identifiers labelled hr),
    List.forall₂_map_left_iff.mpr (List.forall₂_same.mpr fun r _ => r.readFrom_text), ?_, ?_⟩
  · have program : a.program = some d.program := congrArg Prod.fst outputs
    have executable : a.executable = words := congrArg Prod.snd outputs
    simp only [Assembler.listing, program, executable, BusMachine.listing]
  · exact fun writable => shows.isWritable writable linked.fits (linked.isWritable writable)

/-- Two labels stand at the first instruction, whose line is cut, and one behind the last, which
has no operands. -/
def stacksLabels :
    String :=
  "n\nfirst:\nagain : ; the same\n  inc n ; one more each time this is passed\nret\nend:"

def stacksLabelsListing : String :=
  "  ADDR  WORDS             SOURCE\n" ++
  "------------------------------------------------------------\n" ++
  "    63                    n\n" ++
  "     0  9 63 7            <prologue: %stkbot>\n" ++
  "     3  9 63 6            <prologue: %stktop>\n" ++
  "                          first:\n" ++
  "                          again:\n" ++
  "     6  11 63             inc n ; one more each time this is passe\n" ++
  "     8  20                ret\n" ++
  "                          end:\n" ++
  "     9  -1                <end>"

theorem stacksLabels_listing :
    ((ofSize 64).assemble stacksLabels).2 = .ok [9, 63, 7, 9, 63, 6, 11, 63, 20, -1] ∧
      (((ofSize 64).assemble stacksLabels).1.after [.parse "9", .setMemorySize 8,
        .setMemorySize 64]).listing =
        .ok stacksLabelsListing ∧
      ∃ p halves code rows, Shows stacksLabels 64
        [9, 63, 7, 9, 63, 6, 11, 63, 20, -1] p halves code rows ∧
        splitLines stacksLabelsListing.toList = (header ++ rows.map Row.text).map String.toList ∧
        List.Forall₂ Row.ReadFrom (rows.map Row.text) rows := by
  have assembled : ((ofSize 64).assemble stacksLabels).2 =
    .ok [9, 63, 7, 9, 63, 6, 11, 63, 20, -1] := by
    decide +kernel
  have fruitless : ((ofSize 64).assemble stacksLabels).1.Fruitless [.parse "9", .setMemorySize 8,
    .setMemorySize 64] := by
    refine ⟨?_, ?_, ?_, trivial⟩ <;> rintro ⟨_, _, ⟨⟩, _⟩
  have listed : (((ofSize 64).assemble stacksLabels).1.after
      [.parse "9", .setMemorySize 8, .setMemorySize 64]).listing =
        .ok stacksLabelsListing := by decide +kernel
  obtain ⟨p, halves, code, rows, text, -, -, -, shows, lines, read, answer, -⟩ :=
    listing_shows_executable assembled fruitless rfl rfl
  rw [listed] at answer
  split at answer
  · cases answer
    exact ⟨assembled, listed, p, halves, code, rows, shows, lines, read⟩
  · cases answer

/-- The rows of the prologue show the memory size, which is too long to be written. -/
theorem long_base_is_not_listed :
    ((ofSize (10 ^ 4300)).assemble "ret").2 = .ok (oneReturnWords (10 ^ 4300)) ∧
      ¬∃ text, ((ofSize (10 ^ 4300)).assemble "ret").1.listing = .ok text := by
  have long := Numeral.not_isWritable_pow
  obtain ⟨assembled, outputs⟩ := assemble_oneReturn (Int.le_trans (by decide) Numeral.ten_le_pow)
  refine ⟨assembled, ?_⟩
  have program := congrArg Prod.fst outputs
  have executable := congrArg Prod.snd outputs
  rw [Assembler.outputs] at program executable
  dsimp only at program executable
  simp only [Assembler.listing, program, executable, BusMachine.listing]
  generalize (10 ^ 4300 : Int) = w at long
  have shown : prologueRow (oneReturnWords w) 0 .stkbot =
    ⟨some 0, [9, w, 7], "<prologue: %stkbot>"⟩ := rfl
  have half : (prologueRow (oneReturnWords w) 0 .stkbot).isWritable = false := by
    rw [shown, Row.isWritable]
    exact List.all_eq_false.mpr ⟨w, by simp, by rw [long]; decide⟩
  rintro ⟨text, listed⟩
  split at listed
  · next all =>
    have writable :=
      List.all_eq_true.mp all _ (show prologueRow (oneReturnWords w) 0 .stkbot ∈ _ by simp [rows])
    cases half.symm.trans writable
  · cases listed

end Assembler

end BusMachine

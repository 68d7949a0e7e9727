import Story.Proofs.Imports
import Story.Script.Generate

/-!
# The names that a script declares

A script starts with three declarations of its own, and then come the imports of the story, wherever they
stood in it. What these declare decides whether the script is one at all: a name that is declared twice, or
that is a reserved word, is an error of syntax. This file reads the declared names back from the text of the
script and says which stories go wrong.

* `Reads.binds_identifiers` — every import that is recorded, those in paths included, binds an identifier;
* `Import.effective_binds` — an import is left out just if an earlier one binds the same variable;
* `declaredName?` — the name that a statement declares, told from its text;
* `generate_declares` — the names that the script declares before the first line of the story. Imports never
  clash with each other. They do clash with the names of the script itself, and a reserved word is taken for
  a name, since reading an import asks for an identifier only.
-/

namespace Story

open Story.Script (words)

/-! ### The imports -/

/-- The variable that an import binds. One that goes into the context binds none. -/
def Import.binds? (i : Import) : Option String := if i.isIn then none else some i.binding

theorem Import.binding_of_binds? {i : Import} {name : String} (h : i.binds? = some name) :
    i.binding = name := by
  unfold binds? at h
  split at h
  · cases h
  · exact Option.some.inj h

/-- Every import that is recorded on the way binds an identifier. -/
theorem Reads.binds_identifiers {a b : Spot} {cs : List Component} (h : Reads a cs b)
    (ha : ∀ i ∈ a.imports, isIdentifier i.binding = true) :
    ∀ i ∈ b.imports, isIdentifier i.binding = true := by
  induction h with
  | gap h | mark h =>
    rw [h.imports]
    exact ha
  | append _ _ ih ih' => exact ih' (ih ha)
  | inner _ ih | lone _ ih => exact ih ha
  | list hopen _ hclose ih =>
    rw [hclose.passes.imports]
    refine ih ?_
    rw [hopen.imports]
    exact ha
  | node _ hrecords _ _ ih =>
    rw [Spot.leaving, hrecords]
    exact ih ha
  | path _ hbinding _ hword _ _ _ ih =>
    -- The imports in the path come first, and then the import itself.
    refine List.forall_mem_append.mpr ⟨hbinding, ih ?_⟩
    rw [hword.imports]
    exact ha

/-- So do all imports of a story. -/
theorem parseModule_binds_identifiers (source path : String) (indentSize : Nat) :
    ∀ i ∈ (parseModule source path indentSize).module.imports, isIdentifier i.binding = true := by
  obtain ⟨b, hreads, -, -, himports⟩ := parseModule_reads source path indentSize
  rw [himports]
  intro i hi
  exact hreads.binds_identifiers (List.forall_mem_nil _) i (List.mem_reverse.mp hi)

/-- **A variable is bound by the first import of its name,** unless it was bound before. -/
theorem Import.effective_binds (bound : List String) (imports : List Import) :
    (effective bound imports).filterMap binds? =
      ((imports.filterMap binds?).filter fun name => !bound.contains name).eraseDups := by
  induction imports generalizing bound with
  | nil => rfl
  | cons i is ih =>
    rw [effective]
    by_cases hin : i.isIn = true
    · have hnone : i.binds? = none := if_pos hin
      rw [if_pos hin, List.filterMap_cons_none hnone, List.filterMap_cons_none hnone, ih]
    have hsome : i.binds? = some i.binding := if_neg hin
    rw [if_neg hin, List.filterMap_cons_some hsome]
    by_cases hbound : i.binding ∈ bound
    · rw [if_pos hbound, List.filter_cons_of_neg (by simpa using hbound), ih]
    · rw [if_neg hbound, List.filterMap_cons_some hsome, List.filter_cons_of_pos (by simpa using hbound),
        List.eraseDups_cons, ih, List.filter_filter]
      -- From here on the name counts as bound, which drops it as `eraseDups` does.
      congr 2
      refine List.filter_congr fun name _ => ?_
      rw [List.contains_cons, Bool.not_or]

theorem Import.effective_sublist (bound : List String) (imports : List Import) :
    (effective bound imports).Sublist imports := by
  fun_induction effective bound imports with
  | case1 => exact .slnil
  | case2 _ _ _ _ ih => exact ih.cons_cons _
  | case3 _ _ _ _ _ ih => exact ih.cons _
  | case4 _ _ _ _ _ ih => exact ih.cons_cons _

/-! ### Declared names -/

/-- What stands after a keyword, up to the next blank. -/
def nameAfter? (keyword : String) (statement : List Char) : Option String :=
  (statement.dropPrefix? keyword.toList).map fun rest => .ofList (rest.takeWhile (· != ' '))

/-- The name that a statement declares, if it is a declaration. -/
def declaredName? (statement : String) : Option String :=
  nameAfter? "const " statement.toList <|> nameAfter? "let " statement.toList

/-- The statement of an import. -/
def Import.statement (i : Import) : String :=
  if i.isIn then "context[" ++ quoteName i.binding ++ "] = " ++ i.required ++ ";"
  else "const " ++ i.binding ++ " = " ++ i.required ++ ";"

namespace ScriptOptions

/-- The statements that every script starts with. -/
def opening (o : ScriptOptions) : List String :=
  ["const environment = require(" ++ quoteName o.environment ++ ");", "let context = \x7b __text: [] \x7d;",
    "const serializer = environment.getSerializer();"]

/-- All statements of a script before the first line of the story. -/
def header (o : ScriptOptions) (m : Module) : List String :=
  o.opening ++ (Import.effective [] m.imports).map Import.statement

end ScriptOptions

/-- The names that a script needs for itself. -/
def ownNames : List String := ["environment", "context", "serializer"]

/-- There is no blank in an identifier. -/
theorem blank_notMem_of_isIdentifier {name : String} (h : isIdentifier name = true) : ' ' ∉ name.toList := by
  have hstart : isNameStart ' ' = false := by decide
  have hcontinue : isNameContinue ' ' = false := by decide
  unfold isIdentifier at h
  intro hblank
  -- The name is not empty, and a blank can be neither its first character nor a later one.
  split at h
  · cases h
  · next c cs hcs =>
    rw [hcs] at hblank
    rw [Bool.and_eq_true, List.all_eq_true] at h
    obtain rfl | hblank := List.mem_cons.mp hblank
    · simp [hstart] at h
    · simpa [hcontinue] using h.2 _ hblank

theorem nameAfter?_of_append {keyword name : String} (h : ' ' ∉ name.toList) (rest : String) :
    nameAfter? keyword (keyword ++ name ++ " " ++ rest).toList = some name := by
  have hname : ∀ c ∈ name.toList, (c != ' ') = true := by
    intro c hc
    refine bne_iff_ne.mpr fun hblank => h ?_
    exact hblank ▸ hc
  have hprefix : (keyword ++ name ++ " " ++ rest).toList.dropPrefix? keyword.toList =
      some (name.toList ++ ' ' :: rest.toList) :=
    List.dropPrefix?_eq_some_iff.mpr ⟨keyword.toList, by simp, beq_iff_eq.mpr rfl⟩
  rw [nameAfter?, hprefix, Option.map_some, List.takeWhile_append_of_pos hname,
    List.takeWhile_cons_of_neg (by decide), List.append_nil, String.ofList_toList]

/-- The statement of an import declares the variable that the import binds. -/
theorem Import.declaredName?_statement {i : Import} (h : isIdentifier i.binding = true) :
    declaredName? i.statement = i.binds? := by
  unfold statement binds?
  split
  · simp [declaredName?, nameAfter?, List.dropPrefix?]
  · have hstatement : "const " ++ i.binding ++ " = " ++ i.required ++ ";" =
        "const " ++ i.binding ++ " " ++ ("= " ++ i.required ++ ";") := by
      simp only [String.append_assoc]
      rfl
    rw [hstatement, declaredName?, nameAfter?_of_append (blank_notMem_of_isIdentifier h)]
    rfl

theorem ScriptOptions.declaredNames_opening (o : ScriptOptions) :
    o.opening.filterMap declaredName? = ownNames := by
  simp [opening, declaredName?, nameAfter?, List.dropPrefix?, ownNames]

/-- The names that a header declares: those of the script itself, and what the imports bind, each once. -/
theorem declaredNames_header (o : ScriptOptions) {m : Module}
    (h : ∀ i ∈ m.imports, isIdentifier i.binding = true) :
    (o.header m).filterMap declaredName? = ownNames ++ (m.imports.filterMap Import.binds?).eraseDups := by
  have himports : ((Import.effective [] m.imports).map Import.statement).filterMap declaredName? =
      (Import.effective [] m.imports).filterMap Import.binds? := by
    rw [List.filterMap_map]
    refine List.filterMap_congr fun i hi => ?_
    exact Import.declaredName?_statement (h i ((Import.effective_sublist [] m.imports).subset hi))
  rw [ScriptOptions.header, List.filterMap_append, o.declaredNames_opening, himports, Import.effective_binds]
  congr 2
  exact List.filter_eq_self.mpr fun _ _ => rfl

/-! ### The text of the script -/

theorem Script.text_statement (layout : Layout) (statement : String) :
    Script.text layout (Script.line 0 (words statement)) = statement ++ layout.newline := by
  simp [Script.text, Script.line, words, Piece.toText]

/-- **A script starts with its header,** one statement a line. -/
theorem generate_script (o : ScriptOptions) (m : Module) :
    (generate o m).script =
      String.join ((o.header m).map (· ++ o.layout.newline)) ++
        Script.text o.layout (((Line.scripts o 0 m.lines).run .initial).1 ++
          Script.line 0 (words "module.exports = context;")) := by
  -- An import is one line, so the lines of all imports come one after the other.
  have himport (i : Import) : Script.text o.layout i.script = i.statement ++ o.layout.newline := by
    simp [Script.text, Import.script, Import.statement, Script.line, Script.marked, words, Piece.toText]
  have himports (is : List Import) : Script.text o.layout (is.flatMap Import.script) =
      String.join (is.map fun i => i.statement ++ o.layout.newline) := by
    induction is with
    | nil => rfl
    | cons i is ih =>
      rw [List.flatMap_cons, Script.text_append, himport, ih, List.map_cons, String.join_cons]
  have hpreamble : Script.text o.layout o.preamble =
      String.join (o.opening.map (· ++ o.layout.newline)) := by
    simp [ScriptOptions.preamble, ScriptOptions.opening, Script.text_append, Script.text_statement,
      String.append_assoc]
  unfold generate
  dsimp only
  rw [Module.script, List.append_assoc, Script.text_append, Script.text_append, hpreamble, himports,
    ScriptOptions.header, List.map_append, String.join_append, List.map_map]
  rfl

theorem nodup_eraseDups (names : List String) : names.eraseDups.Nodup := by
  match names with
  | [] => exact .nil
  | name :: names =>
    rw [List.eraseDups_cons]
    refine List.nodup_cons.mpr ⟨fun hmem => ?_, nodup_eraseDups _⟩
    simpa using (List.mem_filter.mp (List.mem_eraseDups.mp hmem)).2
termination_by names.length
decreasing_by exact Nat.lt_succ_of_le (List.length_filter_le _ _)

/-- **What a script declares before the first line of the story,** whatever the story is. The script starts
with the statements of its header. They declare the names that the script needs for itself and the variables
that imports bind, each once, and all of these are identifiers. So the header declares a name twice, or a
reserved word, if and only if an import binds a reserved word or one of the script's own names. -/
theorem generate_declares (source path : String) (indentSize : Nat) (o : ScriptOptions) :
    let m := (parseModule source path indentSize).module
    let bound := m.imports.filterMap Import.binds?
    let declared := (o.header m).filterMap declaredName?
    (generate o m).script = String.join ((o.header m).map (· ++ o.layout.newline)) ++
        Script.text o.layout (((Line.scripts o 0 m.lines).run .initial).1 ++
          Script.line 0 (words "module.exports = context;")) ∧
      declared = ownNames ++ bound.eraseDups ∧
      (∀ name ∈ declared, isIdentifier name = true) ∧
      ((declared.Nodup ∧ ∀ name ∈ declared, isReserved name = false) ↔
        ∀ name ∈ bound, isReserved name = false ∧ name ∉ ownNames) := by
  intro m bound declared
  have hbinds : ∀ i ∈ m.imports, isIdentifier i.binding = true :=
    parseModule_binds_identifiers source path indentSize
  have hbound : ∀ name ∈ bound, isIdentifier name = true := by
    intro name hname
    obtain ⟨i, hi, hbinds?⟩ := List.mem_filterMap.mp hname
    exact Import.binding_of_binds? hbinds? ▸ hbinds i hi
  have hdeclared : declared = ownNames ++ bound.eraseDups := declaredNames_header o hbinds
  have hown : ownNames.Nodup ∧ ∀ name ∈ ownNames, isReserved name = false ∧ isIdentifier name = true := by
    decide
  refine ⟨generate_script o m, hdeclared, ?_⟩
  -- From here on only the lists of names matter.
  clear_value declared bound
  rw [hdeclared, List.nodup_append, List.forall_mem_append, List.forall_mem_append]
  refine ⟨⟨fun name hname => (hown.2 name hname).2,
    fun name hname => hbound name (List.mem_eraseDups.mp hname)⟩, ?_, ?_⟩
  · rintro ⟨⟨-, -, hapart⟩, -, hreserved⟩ name hname
    have hname : name ∈ bound.eraseDups := List.mem_eraseDups.mpr hname
    exact ⟨hreserved name hname, fun howned => hapart name howned name hname rfl⟩
  · intro hfree
    refine ⟨⟨hown.1, nodup_eraseDups bound, fun own howned name hname heq => ?_⟩,
      fun name hname => (hown.2 name hname).1, fun name hname => ?_⟩
    · exact (hfree name (List.mem_eraseDups.mp hname)).2 (heq ▸ howned)
    · exact (hfree name (List.mem_eraseDups.mp hname)).1

/-- Nothing is wrong with these two stories, but the first one declares a reserved word, and the second one
declares a name of the script again. -/
example :
    ((parseModule "* import class from 'a'\n" "" 2).diagnostics = [] ∧
      (parseModule "* import class from 'a'\n" "" 2).module.imports.filterMap Import.binds? = ["class"]) ∧
    (parseModule "* import a as context from 'b'\n" "" 2).diagnostics = [] ∧
      (parseModule "* import a as context from 'b'\n" "" 2).module.imports.filterMap Import.binds? =
        ["context"] := by
  decide +kernel

end Story

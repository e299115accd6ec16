import CloudDrive.Foundation.RoseTree

/-! # The static check of generated code

`validate_skill_code` of `app/assistant/skills/codeguard.py`. The parser of Python is given;
the check walks over the tree that it makes of a text. -/

namespace CloudDrive

/-- What the check reads of a node of `ast`. The children are those of `iter_child_nodes`: the
first child of an attribute is its value, and the body of a function is below it. -/
inductive AstNode where
  | importNames (names : List String)
  | importFrom (moduleName : Option String)
  | name (id : String)
  | attributeOf (attr : String)
  | functionDef (name : String) (args : List String)
  | other
  deriving DecidableEq, Repr

abbrev Ast := RoseTree.Tree AstNode

/-- What `ast.parse` raises: `SyntaxError`, or an error that is none, such as the
`RecursionError` and the `MemoryError` for code that is nested too deeply. -/
inductive ParseError where
  | syntaxError (msg : String) (lineno : Option Nat)
  | uncaught (text : String)

/-- `ast.parse`, which gives the body of the module. -/
class PythonParser where
  parse : String → Except ParseError (List Ast)

namespace CodeGuard

/-- `_FORBIDDEN_IMPORTS`. -/
def forbiddenImports : List String :=
  ["subprocess", "socket", "ssl", "ctypes", "cffi", "multiprocessing", "threading", "asyncio",
    "requests", "httpx", "urllib", "http", "ftplib", "smtplib", "telnetlib", "paramiko", "pty",
    "signal", "importlib", "pickle", "marshal", "code", "codeop", "winreg", "fcntl", "mmap"]

/-- `_FORBIDDEN_NAMES`. -/
def forbiddenNames : List String :=
  ["eval", "exec", "compile", "__import__", "globals", "vars", "breakpoint", "input"]

/-- `_FORBIDDEN_OS_ATTRS`. -/
def forbiddenOsAttrs : List String :=
  ["system", "popen", "execv", "execve", "execvp", "execl", "execlp", "spawnv", "spawnl",
    "posix_spawn", "startfile", "fork", "forkpty", "kill", "killpg", "setuid", "setgid"]

/-- `_REQUIRED_PARAMS`. -/
def requiredParams : List String := ["input_path", "output_dir", "params"]

/-- `name.split(".")[0]`. -/
def importRoot (name : String) : String :=
  String.ofList (name.toList.takeWhile (· ≠ '.'))

/-- `attr.startswith("__") and attr.endswith("__")`, apart from the two that are allowed. -/
def isDunder (attr : String) : Bool :=
  "__".toList.isPrefixOf attr.toList && "__".toList.isSuffixOf attr.toList &&
    decide (attr ∉ ["__name__", "__doc__"])

/-- `isinstance(node.value, ast.Name) and node.value.id == "os"`. -/
def isOnOs (node : Ast) : Bool :=
  decide (node.children.head?.map RoseTree.Tree.label = some (.name "os"))

/-- One round of the loop over `ast.walk`. -/
def nodeProblems (node : Ast) : List String :=
  match node.label with
  | .importNames names =>
      (names.filter fun name => decide (importRoot name ∈ forbiddenImports)).map fun name =>
        s!"forbidden import: {name}"
  | .importFrom moduleName =>
      if importRoot (moduleName.getD "") ∈ forbiddenImports then
        ["forbidden import: from " ++ moduleName.getD "None"]
      else []
  | .name id => if id ∈ forbiddenNames then [s!"forbidden use of '{id}'"] else []
  | .attributeOf attr =>
      (if isOnOs node = true ∧ attr ∈ forbiddenOsAttrs then [s!"forbidden call: os.{attr}"]
        else []) ++
      (if isDunder attr = true then [s!"forbidden dunder access: {attr}"] else [])
  | .functionDef .. | .other => []

/-- The parameters of the first function `run` at the top of the module. -/
def runParams (body : List Ast) : Option (List String) :=
  body.findSome? fun node =>
    match node.label with
    | .functionDef name args => if name = "run" then some args else none
    | _ => none

/-- `_check_run_contract`. -/
def checkRunContract (body : List Ast) : List String :=
  match runParams body with
  | none => ["missing required entrypoint: def run(input_path, output_dir, params)"]
  | some args =>
      if args.take 3 ≠ requiredParams then
        let got := if args = [] then "no args" else ", ".intercalate args
        ["run() must take exactly (input_path, output_dir, params); got " ++ s!"({got})"]
      else []

/-- The problems in their order, each once. -/
def unique (problems : List String) : List String :=
  problems.foldl (fun seen problem => if problem ∈ seen then seen else seen ++ [problem]) []

/-- `validate_skill_code`. The error is the text of one that it does not catch. -/
def validateSkillCode [PythonParser] (code : String) : Except String (List String) :=
  match PythonParser.parse code with
  | .error (.uncaught text) => .error text
  | .error (.syntaxError msg lineno) =>
      let line := match lineno with
        | some lineno => toString lineno
        | none => "None"
      .ok [s!"syntax error: {msg} (line {line})"]
  | .ok body =>
      .ok (unique
        (checkRunContract body ++ (RoseTree.Tree.node .other body).walk.flatMap nodeProblems))

/-! ## What is refused -/

/-- A node that generated code must not have. -/
inductive Forbidden (node : Ast) : Prop where
  | imports {names : List String} {name : String} : node.label = .importNames names →
      name ∈ names → importRoot name ∈ forbiddenImports → Forbidden node
  | importsFrom {moduleName : Option String} : node.label = .importFrom moduleName →
      importRoot (moduleName.getD "") ∈ forbiddenImports → Forbidden node
  | uses {id : String} : node.label = .name id → id ∈ forbiddenNames → Forbidden node
  | calls {attr : String} : node.label = .attributeOf attr → isOnOs node = true →
      attr ∈ forbiddenOsAttrs → Forbidden node
  | accesses {attr : String} : node.label = .attributeOf attr → isDunder attr = true →
      Forbidden node

/-- The module defines `run` with the three parameters first, and nothing in it, however deep,
is forbidden. -/
structure Clean (body : List Ast) : Prop where
  contract : ∃ args, runParams body = some args ∧ args.take 3 = requiredParams
  nodes : ∀ node, RoseTree.Tree.Within node (.node .other body) → ¬ Forbidden node

theorem nodeProblems_eq_nil {node : Ast} : nodeProblems node = [] ↔ ¬ Forbidden node := by
  constructor
  · intro none isForbidden
    cases isForbidden with
    | imports isLabel member isRoot =>
        simp only [nodeProblems, isLabel, List.map_eq_nil_iff, List.filter_eq_nil_iff] at none
        exact none _ member (decide_eq_true isRoot)
    | importsFrom isLabel isRoot => simp [nodeProblems, isLabel, isRoot] at none
    | uses isLabel isName => simp [nodeProblems, isLabel, isName] at none
    | calls isLabel onOs isAttr => simp [nodeProblems, isLabel, onOs, isAttr] at none
    | accesses isLabel dunder => simp [nodeProblems, isLabel, dunder] at none
  · intro allowed
    rw [nodeProblems]
    cases isLabel : node.label with
    | importNames names =>
        rw [List.map_eq_nil_iff, List.filter_eq_nil_iff]
        exact fun name member isRoot =>
          allowed (.imports isLabel member (of_decide_eq_true isRoot))
    | importFrom moduleName => exact if_neg fun isRoot => allowed (.importsFrom isLabel isRoot)
    | name id => exact if_neg fun isName => allowed (.uses isLabel isName)
    | attributeOf attr =>
        have call : ¬ (isOnOs node = true ∧ attr ∈ forbiddenOsAttrs) :=
          fun both => allowed (.calls isLabel both.1 both.2)
        have access : ¬ isDunder attr = true := fun dunder => allowed (.accesses isLabel dunder)
        dsimp only
        rw [if_neg call, if_neg access, List.append_nil]
    | functionDef name args => rfl
    | other => rfl

theorem checkRunContract_eq_nil {body : List Ast} : checkRunContract body = [] ↔
    ∃ args, runParams body = some args ∧ args.take 3 = requiredParams := by
  rw [checkRunContract]
  cases runParams body with
  | none => simp
  | some args => by_cases same : args.take 3 = requiredParams <;> simp [same]

theorem mem_unique {problem : String} {problems : List String} :
    problem ∈ unique problems ↔ problem ∈ problems := by
  have each : ∀ (problems seen : List String),
      problem ∈ problems.foldl (fun seen problem =>
        if problem ∈ seen then seen else seen ++ [problem]) seen ↔
          problem ∈ seen ∨ problem ∈ problems := by
    intro problems
    induction problems with
    | nil => simp
    | cons first rest induction =>
        intro seen
        rw [List.foldl_cons, induction]
        by_cases known : first ∈ seen
        · rw [if_pos known, List.mem_cons]
          constructor
          · exact Or.imp_right Or.inr
          · rintro (inSeen | rfl | inRest)
            · exact .inl inSeen
            · exact .inl known
            · exact .inr inRest
        · simp [known, or_assoc]
  rw [unique, each]
  simp

theorem unique_eq_nil {problems : List String} : unique problems = [] ↔ problems = [] := by
  simp only [List.eq_nil_iff_forall_not_mem, mem_unique]

/-- The check passes exactly the texts that parse into a clean module: the walk leaves no node
out. -/
theorem validateSkillCode_eq_nil [PythonParser] {code : String} :
    validateSkillCode code = .ok [] ↔
      ∃ body, PythonParser.parse code = .ok body ∧ Clean body := by
  rw [validateSkillCode]
  cases parsed : PythonParser.parse code with
  | error exc => cases exc <;> simp
  | ok body =>
      dsimp only
      rw [Except.ok.injEq, unique_eq_nil, List.append_eq_nil_iff, checkRunContract_eq_nil,
        List.flatMap_eq_nil_iff]
      simp only [RoseTree.Tree.mem_walk, nodeProblems_eq_nil]
      constructor
      · exact fun both => ⟨body, rfl, both.1, both.2⟩
      · rintro ⟨_, same, clean⟩
        cases same
        exact ⟨clean.contract, clean.nodes⟩

end CodeGuard

end CloudDrive

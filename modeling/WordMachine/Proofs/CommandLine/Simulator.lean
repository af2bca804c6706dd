import WordMachine.Proofs.CommandLine.Files
import WordMachine.Proofs.CommandLine.Report
import WordMachine.Proofs.Machine.Iteration
import WordMachine.Proofs.Text.Digits

/-!
# Simulating

The simulator tool on a tree of files. A call of it has arguments that it understands and files that
can be read (`Simulator.Call`); there is one for every request (`Simulator.exists_call`). It runs
the source file from the start with the limit of the request, of the settings or of the tool, in
this order, and changes no file (`Simulator.Call.run_eq`). Its standard output is empty if the run
traps. Otherwise it is a report, which tells the registers, the flags and the memory that the run
ends with, because all runs have memories of one size (`Simulator.Call.stdout_eq_iff`).
-/

namespace WordMachine

/-! ## Arguments that are read -/

theorem Argument.ofString_named {name : String} (hname : '=' ∉ name.toList) (value : String) :
    ofString ("--" ++ name ++ "=" ++ value) = .long name (some value) := by
  have htext : ("--" ++ name ++ "=" ++ value).toList =
      '-' :: '-' :: (name.toList ++ '=' :: value.toList) := by simp
  have hbefore : ∀ c ∈ name.toList, (c != '=') = true := by
    intro c hc
    rw [bne_iff_ne]
    rintro rfl
    exact hname hc
  unfold ofString
  simp [htext, List.takeWhile_append_of_pos hbefore, List.dropWhile_append_of_pos hbefore]

theorem Given.addOption_of_new {given : Given} {name : String} (hnew : given.value? name = none)
    (value : String) :
    given.addOption name value = .ok { given with options := (name, value) :: given.options } := by
  rw [addOption, hnew]
  rfl

/-- An option that has not been given yet, with its value in the same argument. -/
theorem CommandSpec.readFrom_named {spec : CommandSpec} (option : OptionSpec)
    {accepts : String → Bool} {value : String} {given : Given}
    (hsubcommands : spec.subcommands = [])
    (hoption : spec.options.find? (·.name == option.name) = some option)
    (hkind : option.kind = .value accepts) (hname : '=' ∉ option.name.toList)
    (hvalue : accepts value = true) (hnew : given.value? option.name = none) (rest : List String) :
    spec.readFrom given (("--" ++ option.name ++ "=" ++ value) :: rest) =
      spec.readFrom { given with options := (option.name, value) :: given.options } rest := by
  rw [readFrom]
  simp [hsubcommands, Argument.ofString_named hname, option?, hoption, hkind, hvalue,
    Given.addOption_of_new hnew]
  rfl

namespace Simulator

/-! ## Requests -/

/-- The settings of a request: those of its settings file, which has to say some. -/
inductive Request.ReadsSettings (r : Request) (t : FileTree) : Settings → Prop
  | none (hconfig : r.config = none) : r.ReadsSettings t {}
  | file {path content : String} {settings : Settings} (hconfig : r.config = some path)
      (hread : t.read? path = some content)
      (hjson : Settings.ofJson? content.toList = some settings) : r.ReadsSettings t settings

/-- The limit of a run: the one that is asked for, else the one that is set, else ten million. -/
inductive Limit : Option UInt64 → Option UInt64 → UInt64 → Prop
  | asked (n : UInt64) (set : Option UInt64) : Limit (some n) set n
  | set (n : UInt64) : Limit none (some n) n
  | default : Limit none none 10000000

theorem exists_limit (asked set : Option UInt64) : ∃ limit, Limit asked set limit := by
  cases asked with
  | some n => exact ⟨n, .asked n set⟩
  | none =>
    cases set with
    | some n => exact ⟨n, .set n⟩
    | none => exact ⟨_, .default⟩

theorem Limit.complete_eq {r : Request} {settings : Settings} {limit : UInt64}
    (h : Limit r.maxSteps settings.maxSteps limit) :
    r.complete settings = { maxSteps := some limit } := by
  unfold Request.complete
  generalize r.maxSteps = asked at h
  generalize settings.maxSteps = set at h
  cases h <;> rfl

/-! ## Arguments that ask for a request -/

/-- A limit as the value of an option. -/
def maxStepsValue (n : UInt64) : String :=
  String.ofList (Text.decimal n.toNat)

theorem readUInt64?_maxStepsValue (n : UInt64) : readUInt64? (maxStepsValue n) = some n := by
  have hread : Text.unsigned? 10 (UInt64.size - 1) (Text.decimal n.toNat) = some n.toNat :=
    (Text.unsigned?_eq_some_iff (by decide)).2
      (.plain (Text.digits_decimal _) (Nat.le_pred_of_lt n.toNat_lt))
  rw [readUInt64?, maxStepsValue, String.toList_ofList, hread]
  simp

namespace Request

/-- Arguments that ask for a request. The source file stands behind a separator, because its name
may begin with a dash. -/
def arguments (r : Request) : List String :=
  (r.maxSteps.map fun n => "--max-steps=" ++ maxStepsValue n).toList ++
    ((r.config.map ("--config=" ++ ·)).toList ++
      ((if r.json then ["--json"] else []) ++ ["--", r.source]))

/-- What the arguments give: the options from the last one to the first, and the source file. -/
def given (r : Request) : Given where
  options := (if r.json then [("json", "")] else []) ++
    ((r.config.map (("config", ·))).toList ++
      (r.maxSteps.map fun n => ("max-steps", maxStepsValue n)).toList)
  positional := some r.source

theorem read_arguments {r : Request} (hconfig : r.config ≠ some "") (hsource : r.source ≠ "") :
    spec.read r.arguments = .ok r.given := by
  obtain ⟨maxSteps, config, json, source⟩ := r
  have hmaxSteps (rest : List String) :
      spec.readFrom {}
          ((maxSteps.map fun n => "--max-steps=" ++ maxStepsValue n).toList ++ rest) =
        spec.readFrom
          { options := (maxSteps.map fun n => ("max-steps", maxStepsValue n)).toList } rest := by
    cases maxSteps with
    | none => rfl
    | some n =>
      have hvalue : (readUInt64? (maxStepsValue n)).isSome = true := by
        rw [readUInt64?_maxStepsValue]
        rfl
      exact CommandSpec.readFrom_named spec.options[1] rfl rfl rfl (by decide) hvalue rfl rest
  have hconfig (rest : List String) :
      spec.readFrom { options := (maxSteps.map fun n => ("max-steps", maxStepsValue n)).toList }
          ((config.map ("--config=" ++ ·)).toList ++ rest) =
        spec.readFrom
          { options := (config.map (("config", ·))).toList ++
              (maxSteps.map fun n => ("max-steps", maxStepsValue n)).toList } rest := by
    cases config with
    | none => rfl
    | some path =>
      refine CommandSpec.readFrom_named spec.options[2] rfl rfl rfl (by decide) ?_ ?_ rest
      · simpa [isPath] using hconfig
      · cases maxSteps <;> rfl
  have hpath : isPath source = true := by simpa [isPath] using hsource
  have hlast {given : Given} (hnew : given.positional = none) :
      spec.readFrom given ["--", source] = .ok { given with positional := some source } := by
    simp [CommandSpec.readFrom, spec, Argument.ofString, Given.addPositional, hpath, hnew]
  rw [CommandSpec.read, arguments, hmaxSteps, hconfig]
  cases json with
  | false => exact hlast rfl
  | true =>
    have hnew : Given.value? { options := (config.map (("config", ·))).toList ++
        (maxSteps.map fun n => ("max-steps", maxStepsValue n)).toList } "json" = none := by
      cases config <;> cases maxSteps <;> rfl
    have hjson (given : Given) : spec.readFrom given ["--json", "--", source] =
        given.addOption "json" "" >>= fun given => spec.readFrom given ["--", source] := rfl
    refine (hjson _).trans ?_
    rw [Given.addOption_of_new hnew]
    exact hlast rfl

/-- Every request that names files can be asked for. -/
theorem ofArguments_arguments {r : Request} (hconfig : r.config ≠ some "")
    (hsource : r.source ≠ "") : ofArguments r.arguments = .ok r := by
  rw [ofArguments, read_arguments hconfig hsource]
  obtain ⟨maxSteps, config, json, source⟩ := r
  cases maxSteps <;> cases config <;> cases json <;>
    simp [given, Given.value?, List.lookup_cons, readUInt64?_maxStepsValue]

theorem ReadsSettings.run_readSettings {r : Request} {t : FileTree} {settings : Settings}
    (h : r.ReadsSettings t settings) :
    (r.readSettings : ExceptT String OnFiles Settings).run.run t = (.ok settings, t) := by
  rw [readSettings]
  cases h with
  | none hconfig =>
    rw [hconfig]
    rfl
  | file hconfig hread hjson =>
    rw [hconfig]
    refine (OnFiles.run_bind (OnFiles.run_readOr hread)).trans ?_
    rw [hjson]
    rfl

end Request

/-! ## Calls -/

/-- A call of the tool with arguments that it understands and files that can be read. -/
structure Call where
  tree : FileTree
  args : List String
  request : Request
  settings : Settings
  limit : UInt64
  source : String
  arguments_eq : Request.ofArguments args = .ok request
  readsSettings : request.ReadsSettings tree settings
  limits : Limit request.maxSteps settings.maxSteps limit
  source_eq : tree.read? request.source = some source

/-- A request that names files can be made in every tree where they can be read. -/
theorem exists_call {t : FileTree} {r : Request} {settings : Settings} {source : String}
    (hconfig : r.config ≠ some "") (hpath : r.source ≠ "") (hsettings : r.ReadsSettings t settings)
    (hsource : t.read? r.source = some source) :
    ∃ c : Call, c.tree = t ∧ c.request = r ∧ c.settings = settings ∧ c.source = source := by
  obtain ⟨limit, hlimit⟩ := exists_limit r.maxSteps settings.maxSteps
  exact ⟨⟨t, r.arguments, r, settings, limit, source, Request.ofArguments_arguments hconfig hpath,
    hsettings, hlimit, hsource⟩, rfl, rfl, rfl, rfl⟩

namespace Call

variable (c : Call)

/-- What the call leaves behind. -/
def outcome : Outcome :=
  ((Simulator.run c.args : OnFiles Outcome).run c.tree).1

/-- The run of the source, with the limit, on a memory as large as addresses reach. -/
def result : Except Trap Trace × Machine :=
  (Machine.new 65536).run (Program.ofSource c.source) { maxSteps := some c.limit }

variable {c}

/-- The call runs the source with the limit, and leaves the tree as it was. -/
theorem run_eq :
    (Simulator.run c.args : OnFiles Outcome).run c.tree =
      (.ofResult (c.request.simulate c.settings c.source), c.tree) := by
  have hresult :
      (c.request.readSettings >>= fun settings => readSource c.request.source >>= fun source =>
        liftM (c.request.simulate settings source) : ExceptT String OnFiles String).run.run
          c.tree = (c.request.simulate c.settings c.source, c.tree) := by
    rw [OnFiles.run_bind c.readsSettings.run_readSettings, readSource,
      OnFiles.run_bind (OnFiles.run_readOr c.source_eq)]
    rfl
  simp only [Simulator.run, c.arguments_eq, Request.perform, StateT.run_bind]
  rw [hresult]
  rfl

theorem outcome_eq : c.outcome = .ofResult (c.request.simulate c.settings c.source) := by
  rw [outcome, run_eq]

theorem run_complete :
    (Machine.new Word.count).run (Program.ofSource c.source) (c.request.complete c.settings) =
      c.result := by
  rw [c.limits.complete_eq]
  rfl

theorem outcome_of_ok {trace : Trace} {m : Machine} (h : c.result = (.ok trace, m)) :
    c.outcome = .success (if c.request.json then (m.reportJson trace.steps).pretty ++ "\n"
      else joinLines m.reportLines) := by
  rw [outcome_eq, Request.simulate, run_complete, h]
  cases c.request.json with
  | false => rfl
  | true => rfl

theorem outcome_of_error {trap : Trap} {m : Machine} (h : c.result = (.error trap, m)) :
    c.outcome = .failure trap.message := by
  rw [outcome_eq, Request.simulate, run_complete, h]
  rfl

theorem exit_eq_zero_iff : c.outcome.exit = 0 ↔ ∃ trace m, c.result = (.ok trace, m) := by
  rcases hresult : c.result with ⟨trap | trace, m⟩
  · rw [outcome_of_error hresult]
    simp [Outcome.failure]
  · rw [outcome_of_ok hresult]
    simp [Outcome.success]

/-- The run does not change the size of the memory. -/
theorem size_result (c : Call) : c.result.2.memory.size = 65536 :=
  (Machine.size_run (Prod.mk.eta (p := c.result)).symm).trans (Memory.size_zeros 65536)

/-- What is printed as text tells the registers, the flags and the memory of the end. -/
theorem stdout_eq_iff {c' : Call} (htext : c.request.json = false)
    (htext' : c'.request.json = false) (hexit : c.outcome.exit = 0) (hexit' : c'.outcome.exit = 0) :
    c.outcome.stdout = c'.outcome.stdout ↔
      c.result.2.cpu.regs = c'.result.2.cpu.regs ∧ c.result.2.cpu.flags = c'.result.2.cpu.flags ∧
        c.result.2.memory = c'.result.2.memory := by
  obtain ⟨trace, m, hresult⟩ := exit_eq_zero_iff.1 hexit
  obtain ⟨trace', m', hresult'⟩ := exit_eq_zero_iff.1 hexit'
  have hsize := c.size_result.trans c'.size_result.symm
  rw [hresult, hresult'] at hsize
  rw [outcome_of_ok hresult, outcome_of_ok hresult', htext, htext', hresult, hresult']
  exact Machine.joinLines_reportLines_inj hsize

end Call

end Simulator

/-- **What the simulator shows.** Every request can be made, with its files in any tree where they
can be read. A call runs the source with the limit that is asked for, else that of the settings,
else ten million, and changes no file. Its exit code is 0 if the run completes on a halted machine,
and only then. Otherwise it is 1, nothing is on the standard output, and the message of the trap is
on the first line of the standard error output. Two calls that show their ends as text print the
same if and only if they end with the same registers, the same flags and the same word at each of
the 65536 addresses. -/
theorem simulator_shows_final_state :
    (∀ (t : FileTree) (r : Simulator.Request) (settings : Settings) (source : String),
      r.config ≠ some "" → r.source ≠ "" → r.ReadsSettings t settings →
      t.read? r.source = some source →
      ∃ c : Simulator.Call,
        c.tree = t ∧ c.request = r ∧ c.settings = settings ∧ c.source = source) ∧
    (∀ c : Simulator.Call,
      (Simulator.run c.args : OnFiles Outcome).run c.tree = (c.outcome, c.tree) ∧
      Simulator.Limit c.request.maxSteps c.settings.maxSteps c.limit ∧
      (c.outcome.exit = 0 ↔ ∃ trace m, c.result = (.ok trace, m) ∧ m.cpu.halted = true) ∧
      (c.outcome.exit ≠ 0 → ∃ trap m, c.result = (.error trap, m) ∧
        c.outcome.exit = 1 ∧ c.outcome.stdout = "" ∧
        (Text.lines c.outcome.stderr.toList).head? = some ("Error: " ++ trap.message).toList)) ∧
    ∀ c c' : Simulator.Call, c.request.json = false → c'.request.json = false →
      c.outcome.exit = 0 → c'.outcome.exit = 0 →
      (c.outcome.stdout = c'.outcome.stdout ↔
        c.result.2.cpu.regs = c'.result.2.cpu.regs ∧
        c.result.2.cpu.flags = c'.result.2.cpu.flags ∧
        ∀ address, ∃ w,
          c.result.2.memory.read address = .ok w ∧ c'.result.2.memory.read address = .ok w) := by
  refine ⟨fun t r settings source => Simulator.exists_call, fun c => ⟨?_, c.limits, ?_, ?_⟩, ?_⟩
  · rw [Simulator.Call.outcome, Simulator.Call.run_eq]
  · rw [Simulator.Call.exit_eq_zero_iff]
    constructor
    · rintro ⟨trace, m, hresult⟩
      exact ⟨trace, m, hresult, (Machine.exists_of_run hresult).2.2.2.1⟩
    · rintro ⟨trace, m, hresult, -⟩
      exact ⟨trace, m, hresult⟩
  · intro hexit
    rcases hresult : c.result with ⟨trap | trace, m⟩
    · rw [Simulator.Call.outcome_of_error hresult]
      exact ⟨trap, m, rfl, rfl, rfl,
        Outcome.head?_lines_failure (Machine.oneLine_of_run hresult)⟩
    · exact absurd (Simulator.Call.exit_eq_zero_iff.2 ⟨trace, m, hresult⟩) hexit
  · intro c c' htext htext' hexit hexit'
    have hread (c : Simulator.Call) (address : Word) :
        ∃ w, c.result.2.memory.read address = .ok w :=
      Memory.exists_read_iff.2 (c.size_result ▸ address.toNat_lt)
    rw [Simulator.Call.stdout_eq_iff htext htext' hexit hexit']
    refine and_congr_right fun _ => and_congr_right fun _ => ?_
    constructor
    · intro hmemory address
      obtain ⟨w, hw⟩ := hread c address
      exact ⟨w, hw, hmemory ▸ hw⟩
    · intro h
      refine Memory.ext_read (c.size_result.trans c'.size_result.symm) fun address w => ?_
      obtain ⟨v, hv, hv'⟩ := h address
      rw [hv, hv']

/-- A source file of two steps, and a settings file with a limit of one. -/
def twoSteps : FileTree where
  files := [(["in.txt".toList], "li r1, 5\nhalt"),
    (["one.json".toList], "\x7b\"max_steps\": 1\x7d")]

/-- A call on these files with a limit that is asked for, or none. -/
def Simulator.Call.onTwoSteps (asked : Option UInt64) (limit : UInt64)
    (h : Limit asked (some 1) limit) : Call where
  tree := twoSteps
  args := Request.arguments { maxSteps := asked, config := some "one.json", source := "in.txt" }
  request := { maxSteps := asked, config := some "one.json", source := "in.txt" }
  settings := { maxSteps := some 1 }
  limit := limit
  source := "li r1, 5\nhalt"
  arguments_eq := Request.ofArguments_arguments (by simp) (by simp)
  readsSettings :=
    have hread : twoSteps.read? "one.json" = some "\x7b\"max_steps\": 1\x7d" := by decide +kernel
    .file rfl hread (by decide +kernel)
  limits := h
  source_eq := by
    have hread : twoSteps.read? "in.txt" = some "li r1, 5\nhalt" := by decide +kernel
    exact hread

/-- The limit of the settings is too low, and another one is asked for in its place. -/
theorem simulator_shows_final_state_limits :
    (Simulator.Call.onTwoSteps none 1 (.set 1)).outcome.exit = 1 ∧
      (Simulator.Call.onTwoSteps none 1 (.set 1)).outcome.stdout = "" ∧
      (Text.lines (Simulator.Call.onTwoSteps none 1 (.set 1)).outcome.stderr.toList).head? =
        some "Error: step limit of 1 reached without halting".toList ∧
      (Simulator.Call.onTwoSteps (some 2) 2 (.asked 2 (some 1))).outcome.exit = 0 := by
  have hset : (Simulator.Call.onTwoSteps none 1 (.set 1)).result.1 = .error (.stepLimit 1) := by
    decide +kernel
  have hasked : (Simulator.Call.onTwoSteps (some 2) 2 (.asked 2 (some 1))).result.1 =
      .ok ⟨#[0x1051, 0], 2⟩ := by
    decide +kernel
  have hhalted : (Simulator.Call.onTwoSteps (some 2) 2 (.asked 2 (some 1))).result.2.cpu.halted =
      true := by
    decide +kernel
  obtain ⟨-, -, hexit, hfailure⟩ :=
    simulator_shows_final_state.2.1 (Simulator.Call.onTwoSteps none 1 (.set 1))
  obtain ⟨-, -, hexit', -⟩ :=
    simulator_shows_final_state.2.1 (Simulator.Call.onTwoSteps (some 2) 2 (.asked 2 (some 1)))
  obtain ⟨trap, m, hresult, hone, hempty, hfirst⟩ := hfailure fun hzero => by
    obtain ⟨trace, m, hresult, -⟩ := hexit.1 hzero
    rw [hresult] at hset
    cases hset
  rw [hresult] at hset
  cases hset
  exact ⟨hone, hempty, hfirst.trans (by decide +kernel),
    hexit'.2 ⟨_, _, Prod.ext hasked rfl, hhalted⟩⟩

end WordMachine

import Mathlib.Data.List.Perm.Subperm

/-! The command line of `tsa2msa` (`app/tsa2msa/main.cpp`).

    `main` parses the command line with boost's program options, checks the global options
    (`check_for_global_parsing_errors`), and then prints the usage, the help or the version,
    or converts the `.tsa` files to `.msa` files. boost is a parameter here: the parse gives a
    `program_options::error` with its `what()`, or the variables map, in which each option's
    value is marked `defaulted()` when only its default put it there. The `bool_switch`es are
    the options given. The classes of the conversion, `tsaReader` and `msaWriter` with its
    `write_timeslice`, are not in this repository, so what the conversion does is a parameter
    too: what it prints, and how it ends the process.

    The results describe what every command line does:
    * the tool converts exactly when input files are named and neither help nor the version
      is asked for (`main_converts`);
    * every run that stops before the conversion with a failure is a usage error that says why,
      one that stops with success is silent on `std::cerr`, neither prints the warning of line
      229, and a run that converts prints and exits as the conversion does, adding nothing of
      its own (`main_reportsErrors`);
    * help allows only `--verbose` beside it, the version allows nothing beside it, both exit
      with `EXIT_SUCCESS`, and `--help` with `--version` is a usage error
      (`main_help_version`). -/

namespace Flesnet.Tsa2msa

/-- `EX_USAGE` of `<sysexits.h>`. -/
def exUsage : Nat := 64

/-- `EXIT_SUCCESS`. -/
def exitSuccess : Nat := 0

/-- One value of boost's `variables_map`: the option's name, and `defaulted()`, whether only the
    option's default value put it there. -/
structure VariableValue where
  name : String
  defaulted : Bool
  deriving DecidableEq, Repr

/-- boost's `variables_map`, a `std::map` from option names: no name twice. -/
structure VariablesMap where
  values : List VariableValue
  nodup : (values.map (·.name)).Nodup

namespace VariablesMap

/-- The map before anything is stored. -/
def empty : VariablesMap := ⟨[], List.nodup_nil⟩

/-- `vm.count(name)`. -/
def count (vm : VariablesMap) (name : String) : Nat :=
  if vm.values.any (·.name == name) then 1 else 0

/-- The loop of lines 233-241: the options present not only by their default. -/
def passedOptions (vm : VariablesMap) : Nat := (vm.values.filter fun v => !v.defaulted).length

/-- A `bool_switch` after `notify(vm)`: true exactly when the user gave it, as it takes no value
    and defaults to false. -/
def switch (vm : VariablesMap) (name : String) : Bool :=
  vm.values.any fun v => v.name == name && !v.defaulted

theorem passedOptions_pos {vm : VariablesMap} {name : String} (h : vm.switch name = true) :
    0 < vm.passedOptions := by
  obtain ⟨v, hv, hn⟩ := List.any_eq_true.mp h
  simp only [Bool.and_eq_true, beq_iff_eq, Bool.not_eq_true'] at hn
  exact List.length_pos_of_mem (List.mem_filter.mpr ⟨hv, by simp [hn.2]⟩)

/-- Distinct switches given are as many options passed. -/
theorem length_le_passedOptions {vm : VariablesMap} {names : List String} (hnd : names.Nodup)
    (h : ∀ a ∈ names, vm.switch a = true) : names.length ≤ vm.passedOptions := by
  have hsub : names ⊆ (vm.values.filter fun v => !v.defaulted).map (·.name) := fun a ha => by
    obtain ⟨v, hv, hn⟩ := List.any_eq_true.mp (h a ha)
    simp only [Bool.and_eq_true, beq_iff_eq, Bool.not_eq_true'] at hn
    exact List.mem_map.mpr ⟨v, List.mem_filter.mpr ⟨hv, by simp [hn.2]⟩, hn.1⟩
  simpa [passedOptions] using (hnd.subperm hsub).length_le

end VariablesMap

/-- A line printed: a text, or one of the two options descriptions of `main` (lines 392-398). -/
inductive Line where
  | text (s : String)
  | commandLineOptions
  | visibleCommandLineOptions
  deriving DecidableEq, Repr

/-- `parse_command_line` (lines 168-193): the command line as boost's parser takes it, a
    `program_options::error` with its `what()` or the variables map; on an error nothing is
    stored and `notify` does not run. -/
def parseCommandLine (commandLine : Except String VariablesMap) :
    Bool × List String × VariablesMap :=
  match commandLine with
  | .error what => (true, ["Error: " ++ what], .empty)
  | .ok vm => (false, [], vm)

/-- The warning of line 229. -/
def earlyErrorWarning : String := "Warning: Expected that so far no error messages are present."

/-- `check_for_global_parsing_errors` (lines 219-269): whether there is a parsing error, the error
    messages after it, and what it printed. -/
def checkForGlobalParsingErrors (vm : VariablesMap) (errorMessage : List String)
    (beVerbose showHelp showVersion : Bool) : Bool × List String × List Line :=
  let printed := if errorMessage.length > 0 then [Line.text earlyErrorWarning] else []
  let nPassedOptions := vm.passedOptions
  if nPassedOptions = 0 then (true, errorMessage ++ ["Error: No options provided."], printed)
  else if showHelp then
    let nAllowedOptions := if beVerbose then 2 else 1
    (decide (nPassedOptions > nAllowedOptions), errorMessage, printed)
  else if showVersion then
    if nPassedOptions > 1 then
      (true, errorMessage ++ ["Error: --version option cannot be combined with other options."],
        printed)
    else (false, errorMessage, printed)
  else if vm.count "input" = 0 then
    (true, errorMessage ++ ["Error: No input file provided."], printed)
  else (false, errorMessage, printed)

/-- `handle_parsing_errors` (lines 279-308): what it prints to `std::cerr`. -/
def handleParsingErrors (errorMessage : List String) (beVerbose showHelp : Bool) : List Line :=
  errorMessage.map .text ++
    (if !showHelp then [.text "Errors occurred: Printing usage.", .text ""] else []) ++
    [if beVerbose then .commandLineOptions else .visibleCommandLineOptions] ++
    (if showHelp then [.text "Error: Ignoring any other options."] else [])

/-- `show_help` (lines 317-327): what it prints to `std::cout`. -/
def showHelpLines (beVerbose : Bool) : List Line :=
  [if beVerbose then .commandLineOptions else .visibleCommandLineOptions]

/-- `show_version` (lines 335-339), with the two strings of `GitRevision.hpp`. -/
def showVersionLines (projectVersion gitRevision : String) : List Line :=
  [.text "tsa2msa version pre-alpha", .text ("  Project version: " ++ projectVersion),
    .text ("  Git revision: " ++ gitRevision)]

/-- What a run of the tool does: its exit code, what it prints, and whether it goes on to read the
    `.tsa` files and write the `.msa` files (lines 428-442). -/
structure Outcome where
  exitCode : Nat
  stdout : List Line
  stderr : List Line
  converts : Bool
  deriving DecidableEq, Repr

/-- What the conversion of lines 428-442 does, whose code is not in this repository: what it
    prints on each stream (`msaWriterOptions::useSequence` warns on `std::cerr`), and `status`,
    `none` when the copy loop ends and `main` returns `EXIT_SUCCESS` (line 444), or the status the
    process ends with when that code ends it first, by an exception escaping `main` or by
    `exit`. -/
structure CopyOutcome where
  stdout : List Line
  stderr : List Line
  status : Option Nat
  deriving DecidableEq, Repr

/-- `main` (lines 355-445) from the parse on; the switches are the `bool_switch`es of lines
    360-376. -/
def main (commandLine : Except String VariablesMap) (projectVersion gitRevision : String)
    (copy : CopyOutcome) : Outcome :=
  let (parsingError, errorMessage, vm) := parseCommandLine commandLine
  let beVerbose := vm.switch "verbose"
  let showHelp := vm.switch "help"
  let showVersion := vm.switch "version"
  let (parsingError, errorMessage, printed) :=
    if !parsingError then
      checkForGlobalParsingErrors vm errorMessage beVerbose showHelp showVersion
    else (parsingError, errorMessage, [])
  if parsingError then
    ⟨exUsage, [], printed ++ handleParsingErrors errorMessage beVerbose showHelp, false⟩
  else if showHelp then ⟨exitSuccess, showHelpLines beVerbose, printed, false⟩
  else if showVersion then
    ⟨exitSuccess, showVersionLines projectVersion gitRevision, printed, false⟩
  else ⟨copy.status.getD exitSuccess, copy.stdout, printed ++ copy.stderr, true⟩

/-! ### What `handle_parsing_errors` prints -/

/-- How a run reports: a run that stops before the conversion with a failure is a usage error
    that says why (it exits with `EX_USAGE`, prints nothing on `std::cout`, and prints an
    "Error: " line and the options description), one that stops with success prints nothing on
    `std::cerr`, and neither prints the warning of line 229; a run that converts exits and prints
    exactly as the conversion `copy` does. -/
def ReportsErrors (copy : CopyOutcome) (o : Outcome) : Prop :=
  (o.converts = false →
    (o.exitCode ≠ exitSuccess → o.exitCode = exUsage ∧ o.stdout = [] ∧
      (∃ rest, Line.text ("Error: " ++ rest) ∈ o.stderr) ∧
      (Line.commandLineOptions ∈ o.stderr ∨ Line.visibleCommandLineOptions ∈ o.stderr)) ∧
    (o.exitCode = exitSuccess → o.stderr = []) ∧
    Line.text earlyErrorWarning ∉ o.stderr) ∧
  (o.converts = true → o = ⟨copy.status.getD exitSuccess, copy.stdout, copy.stderr, true⟩)

namespace ReportsErrors
variable (copy : CopyOutcome)

theorem converts :
    ReportsErrors copy ⟨copy.status.getD exitSuccess, copy.stdout, copy.stderr, true⟩ :=
  ⟨nofun, fun _ => rfl⟩

end ReportsErrors

section runs
variable (projectVersion gitRevision : String) (copy : CopyOutcome)

/-- A command line boost rejects: the usage, with the error, on `std::cerr`. -/
theorem main_error (what : String) :
    main (.error what) projectVersion gitRevision copy =
      ⟨exUsage, [], handleParsingErrors ["Error: " ++ what] false false, false⟩ := rfl

/-- A command line boost accepts: the checks of `check_for_global_parsing_errors`, in order. -/
theorem main_ok (vm : VariablesMap) :
    main (.ok vm) projectVersion gitRevision copy =
      if vm.passedOptions = 0 then
        ⟨exUsage, [], handleParsingErrors ["Error: No options provided."] (vm.switch "verbose")
          (vm.switch "help"), false⟩
      else if vm.switch "help" then
        if vm.passedOptions > (if vm.switch "verbose" then 2 else 1) then
          ⟨exUsage, [], handleParsingErrors [] (vm.switch "verbose") true, false⟩
        else ⟨exitSuccess, showHelpLines (vm.switch "verbose"), [], false⟩
      else if vm.switch "version" then
        if vm.passedOptions > 1 then
          ⟨exUsage, [], handleParsingErrors
            ["Error: --version option cannot be combined with other options."]
            (vm.switch "verbose") false, false⟩
        else ⟨exitSuccess, showVersionLines projectVersion gitRevision, [], false⟩
      else if vm.count "input" = 0 then
        ⟨exUsage, [], handleParsingErrors ["Error: No input file provided."] (vm.switch "verbose")
          false, false⟩
      else ⟨copy.status.getD exitSuccess, copy.stdout, copy.stderr, true⟩ := by
  simp only [main, parseCommandLine, checkForGlobalParsingErrors, Bool.not_false, if_true,
    List.length_nil, gt_iff_lt, lt_self_iff_false, if_false, List.nil_append]
  by_cases h0 : vm.passedOptions = 0
  · simp only [h0, if_true, List.nil_append]
  by_cases hh : vm.switch "help" = true
  · by_cases hp : (if vm.switch "verbose" = true then 2 else 1) < vm.passedOptions <;>
      simp only [h0, hh, hp, if_true, if_false, decide_True, decide_False, List.nil_append,
        Bool.false_eq_true]
  by_cases hv : vm.switch "version" = true
  · by_cases hp : 1 < vm.passedOptions <;>
      simp only [h0, hh, hv, hp, if_true, if_false, List.nil_append, Bool.false_eq_true]
  by_cases hi : vm.count "input" = 0 <;>
    simp only [h0, hh, hv, hi, if_true, if_false, List.nil_append, Bool.false_eq_true]

/-- The tool reads and writes archives exactly when boost accepts the command line, some option
    is passed, neither help nor the version is asked for, and input files are named. -/
theorem main_converts (commandLine : Except String VariablesMap) :
    (main commandLine projectVersion gitRevision copy).converts = true ↔
      ∃ vm, commandLine = .ok vm ∧ 0 < vm.passedOptions ∧ vm.switch "help" = false ∧
        vm.switch "version" = false ∧ vm.count "input" ≠ 0 := by
  cases commandLine with
  | error what => simp [main_error]
  | ok vm =>
    simp only [main_ok, Except.ok.injEq, exists_eq_left']
    constructor
    · intro h
      generalize (if vm.switch "verbose" then 2 else 1) = n at h
      split_ifs at h
      exact ⟨Nat.pos_of_ne_zero ‹_›, Bool.eq_false_iff.mpr ‹_›, Bool.eq_false_iff.mpr ‹_›, ‹_›⟩
    · rintro ⟨h0, hH, hV, hi⟩
      rw [if_neg h0.ne', if_neg (by simp [hH]), if_neg (by simp [hV]), if_neg hi]

theorem main_help (vm : VariablesMap) :
    (∃ b, main (.ok vm) projectVersion gitRevision copy = ⟨exitSuccess, showHelpLines b, [], false⟩) ↔
      vm.switch "help" = true ∧ vm.passedOptions ≤ if vm.switch "verbose" then 2 else 1 := by
  rw [main_ok]
  constructor
  · rintro ⟨b, hb⟩
    generalize (if vm.switch "verbose" then 2 else 1) = n at hb ⊢
    split_ifs at hb <;> simp [showHelpLines, showVersionLines, exUsage, exitSuccess] at hb
    exact ⟨‹_›, by omega⟩
  · rintro ⟨hH, hp⟩
    rw [if_neg (VariablesMap.passedOptions_pos hH).ne', if_pos hH, if_neg (by omega)]
    exact ⟨_, rfl⟩

theorem main_version (vm : VariablesMap) :
    main (.ok vm) projectVersion gitRevision copy =
        ⟨exitSuccess, showVersionLines projectVersion gitRevision, [], false⟩ ↔
      vm.switch "version" = true ∧ vm.passedOptions = 1 := by
  rw [main_ok]
  constructor
  · intro h
    generalize (if vm.switch "verbose" then 2 else 1) = n at h
    split_ifs at h <;> simp [showHelpLines, showVersionLines, exUsage, exitSuccess] at h
    exact ⟨‹_›, by omega⟩
  · rintro ⟨hV, hp⟩
    have hH : vm.switch "help" = false := Bool.eq_false_iff.mpr fun hH => by
      have : ["help", "version"].length ≤ vm.passedOptions :=
        VariablesMap.length_le_passedOptions (by decide) (by simp [hH, hV])
      simp only [List.length_cons, List.length_nil] at this
      omega
    rw [if_neg (by omega), if_neg (by simp [hH]), if_pos hV, if_neg (by omega)]

/-- `--help` beside `--version` is too many options for the help: a usage error. -/
theorem main_help_with_version {vm : VariablesMap} (hH : vm.switch "help" = true)
    (hV : vm.switch "version" = true) :
    main (.ok vm) projectVersion gitRevision copy =
      ⟨exUsage, [], handleParsingErrors [] (vm.switch "verbose") true, false⟩ := by
  have hp : (if vm.switch "verbose" then 2 else 1) < vm.passedOptions := by
    split_ifs with hv
    · exact (VariablesMap.length_le_passedOptions (by decide) (by simp [hH, hV, hv]) :
        ["help", "version", "verbose"].length ≤ vm.passedOptions)
    · exact (VariablesMap.length_le_passedOptions (by decide) (by simp [hH, hV]) :
        ["help", "version"].length ≤ vm.passedOptions)
  rw [main_ok, if_neg (VariablesMap.passedOptions_pos hH).ne', if_pos hH, if_pos hp]

/-- Help and version: the help is shown, with `EXIT_SUCCESS` and nothing else, exactly when
    `--help` is given with nothing beside it but `--verbose`; the version exactly when `--version`
    is the only option given; and `--help` with `--version` is a usage error. -/
theorem main_help_version (commandLine : Except String VariablesMap) :
    ((∃ b, main commandLine projectVersion gitRevision copy =
        ⟨exitSuccess, showHelpLines b, [], false⟩) ↔
      ∃ vm, commandLine = .ok vm ∧ vm.switch "help" = true ∧
        vm.passedOptions ≤ if vm.switch "verbose" then 2 else 1) ∧
    (main commandLine projectVersion gitRevision copy =
        ⟨exitSuccess, showVersionLines projectVersion gitRevision, [], false⟩ ↔
      ∃ vm, commandLine = .ok vm ∧ vm.switch "version" = true ∧ vm.passedOptions = 1) ∧
    ∀ vm, commandLine = .ok vm → vm.switch "help" = true → vm.switch "version" = true →
      main commandLine projectVersion gitRevision copy =
        ⟨exUsage, [], handleParsingErrors [] (vm.switch "verbose") true, false⟩ := by
  cases commandLine with
  | error what => simp [main_error, exUsage, exitSuccess]
  | ok vm =>
    simp only [Except.ok.injEq, exists_eq_left', forall_eq']
    exact ⟨main_help projectVersion gitRevision copy vm,
      main_version projectVersion gitRevision copy vm, main_help_with_version projectVersion gitRevision copy⟩

/-- `tsa2msa -h -V`. -/
def helpVersion : VariablesMap :=
  ⟨[⟨"help", false⟩, ⟨"verbose", true⟩, ⟨"version", false⟩], by decide⟩

/-- The command line of `tsa2msa -h -V`, as boost returns it. -/
def helpVersionLine : Except String VariablesMap := .ok helpVersion

theorem main_help_version_helpVersion :
    ((∃ b, main helpVersionLine "" "" ⟨[], [], none⟩ = ⟨exitSuccess, showHelpLines b, [], false⟩) ↔
      ∃ vm, helpVersionLine = .ok vm ∧ vm.switch "help" = true ∧
        vm.passedOptions ≤ if vm.switch "verbose" then 2 else 1) ∧
    (main helpVersionLine "" "" ⟨[], [], none⟩ = ⟨exitSuccess, showVersionLines "" "", [], false⟩ ↔
      ∃ vm, helpVersionLine = .ok vm ∧ vm.switch "version" = true ∧ vm.passedOptions = 1) ∧
    ∀ vm, helpVersionLine = .ok vm → vm.switch "help" = true → vm.switch "version" = true →
      main helpVersionLine "" "" ⟨[], [], none⟩ =
        ⟨exUsage, [], handleParsingErrors [] (vm.switch "verbose") true, false⟩ :=
  main_help_version "" "" ⟨[], [], none⟩ helpVersionLine

/-- `tsa2msa -h -q`: `--quiet` is not allowed beside `--help`. -/
example : main (.ok ⟨[⟨"help", false⟩, ⟨"quiet", false⟩, ⟨"verbose", true⟩, ⟨"version", true⟩],
    by decide⟩) "" "" ⟨[], [], none⟩ = ⟨exUsage, [], handleParsingErrors [] false true, false⟩ := rfl

end runs

end Flesnet.Tsa2msa

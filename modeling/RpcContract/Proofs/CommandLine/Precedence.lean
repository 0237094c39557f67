import RpcContract.CommandLine.Run
import RpcContract.Proofs.CommandLine.Options
import RpcContract.Proofs.Data.Dict
import RpcContract.Proofs.Settings.File

/-!
# What a setting comes from

The directory of the output and the root of the addresses can be given by an option, by a variable
and in a file, and count in this order.  Variables are read twice, and an empty one is taken for
one that is not set where the settings are resolved, but not where the command line is read.
-/

namespace RpcContract.CommandLine

variable {environment other : Environment} {args : List String} {verbose : Bool} {given : Given}
  {line alone : GenerateArgs} {files : FileTree}

/-! ## The options of a command line -/

/-- A command line of `generate` with these options. -/
def Generates (args : List String) (verbose : Bool) (given : Given) : Prop :=
  ∃ progress rest before, scan [verboseOption] args {} = .ok (progress, .word "generate" rest) ∧
    progress.finish = .ok before ∧ optionsOnly generateOptions rest = .ok given ∧
    verbose = (before.has "verbose" || given.has "verbose")

theorem Generates.read_eq (h : Generates args verbose given) :
    read environment args =
      (readGenerate environment given).map fun command => ⟨verbose, command⟩ := by
  obtain ⟨progress, rest, before, hscan, hfinish, hgiven, rfl⟩ := h
  simp only [read, hscan, hfinish, readCommand, hgiven, bind, Except.bind]
  cases readGenerate environment given <;> rfl

theorem readCommand_eq_ok {name : String} (h : readCommand environment name args =
      .ok (verbose, .generate line)) :
    name = "generate" ∧ ∃ given, optionsOnly generateOptions args = .ok given ∧
      verbose = given.has "verbose" ∧ readGenerate environment given = .ok (.generate line) := by
  unfold readCommand at h
  split at h
  · obtain ⟨given, hgiven, hrest⟩ := bind_eq_ok_iff.mp h
    obtain ⟨command, hcommand, hresult⟩ := bind_eq_ok_iff.mp hrest
    cases hresult
    exact ⟨rfl, given, hgiven, rfl, hcommand⟩
  · obtain ⟨given, -, hresult⟩ := bind_eq_ok_iff.mp h
    cases hresult
  · obtain ⟨given, -, hrest⟩ := bind_eq_ok_iff.mp h
    obtain ⟨contract, -, hresult⟩ := bind_eq_ok_iff.mp hrest
    cases hresult
  · split at h
    · cases h
    · split at h <;> cases h
    · cases h
  · cases h

theorem exists_generates (h : read environment args = .ok ⟨verbose, .generate line⟩) :
    ∃ given, Generates args verbose given ∧
      readGenerate environment given = .ok (.generate line) := by
  obtain ⟨⟨progress, stop⟩, hscan, hrest⟩ := bind_eq_ok_iff.mp h
  cases stop with
  | word name rest =>
      obtain ⟨before, hfinish, hrest⟩ := bind_eq_ok_iff.mp hrest
      obtain ⟨⟨more, command⟩, hcommand, hresult⟩ := bind_eq_ok_iff.mp hrest
      cases hresult
      obtain ⟨rfl, given, hgiven, rfl, hline⟩ := readCommand_eq_ok hcommand
      exact ⟨given, ⟨progress, rest, before, hscan, hfinish, hgiven, rfl⟩, hline⟩
  | behindDashes word =>
      simp only at hrest
      split at hrest <;> cases hrest
  | ending =>
      obtain ⟨before, -, hresult⟩ := bind_eq_ok_iff.mp hrest
      split at hresult <;> cases hresult

theorem Generates.valued (h : Generates args verbose given) {name : String}
    (hname : TakesWord generateOptions name) : given.Valued name := by
  obtain ⟨_, rest, _, -, -, hgiven, -⟩ := h
  obtain ⟨⟨progress, stop⟩, hscan, hrest⟩ := bind_eq_ok_iff.mp hgiven
  have hprogress := Progress.Valued.empty.scan hname hscan
  split at hrest
  next hsame =>
    cases hsame
    exact hprogress.finish hname hrest
  next => cases hrest

/-! ## Variables -/

theorem orVariable_eq {name variable_ : String} (h : given.Valued name) :
    orVariable given name environment variable_ =
      ((given.values name).head?).or (environment.get? variable_) := by
  rw [orVariable]
  split
  next hhas =>
    obtain ⟨value, hvalue⟩ := Option.isSome_iff_exists.mp (h.head?_isSome hhas)
    rw [hvalue, Option.some_or]
  next hhas =>
    have hnone : given.filter (·.1 == name) = [] :=
      List.filter_eq_nil_iff.mpr fun entry hentry hname =>
        hhas (List.any_eq_true.mpr ⟨entry, hentry, hname⟩)
    rw [Given.values, hnone]
    rfl

/-- A command line with the values of variables where options are left out. -/
def GenerateArgs.under (alone : GenerateArgs) (environment : Environment) : GenerateArgs :=
  { alone with
    outDir := alone.outDir.or ((environment.get? outDirVariable).map Path.mk)
    apiRoot := alone.apiRoot.or (environment.get? apiRootVariable) }

theorem GenerateArgs.under_empty (alone : GenerateArgs) : alone.under {} = alone := by
  simp [under]

/-- What is given by options alone. -/
def optionsAlone (given : Given) (contract : Path) : GenerateArgs where
  contract := contract
  settings := ((given.values "config").head?).map Path.mk
  outDir := ((given.values "out").head?).map Path.mk
  templates := given.values "template"
  dump := if given.has "full-schema" then some (given.values "full-schema").head? else none
  segments := given.values "segment"
  apiRoot := (given.values "api-root").head?
  forceLog := given.has "force-log"
  watch := given.has "watch"

theorem Generates.readGenerate_eq (h : Generates args verbose given) :
    readGenerate environment given =
      if ((given.values "out").head?).or (environment.get? outDirVariable) = some "" then
        .error .invalidValue
      else (required given "schema").map fun contract =>
        .generate ((optionsAlone given contract).under environment) := by
  have hout : TakesWord generateOptions "out" := by
    unfold TakesWord
    decide
  have hroot : TakesWord generateOptions "api-root" := by
    unfold TakesWord
    decide
  rw [readGenerate, orVariable_eq (h.valued hout), orVariable_eq (h.valued hroot)]
  by_cases hblank : ((given.values "out").head?).or (environment.get? outDirVariable) = some ""
  · rw [if_pos hblank, if_pos hblank]
    rfl
  · rw [if_neg hblank, if_neg hblank]
    cases required given "schema" with
    | error refusal => rfl
    | ok contract =>
        simp only [GenerateArgs.under, optionsAlone, ← Option.map_or]
        rfl

theorem Generates.exists_optionsAlone (h : Generates args verbose given)
    (hline : readGenerate environment given = .ok (.generate line)) :
    (given.values "out").head? ≠ some "" ∧ ∃ contract, required given "schema" = .ok contract ∧
      line = (optionsAlone given contract).under environment := by
  rw [h.readGenerate_eq] at hline
  split_ifs at hline with hblank
  refine ⟨fun hempty => hblank (by simp [hempty]), ?_⟩
  cases hcontract : required given "schema" with
  | error refusal => simp [hcontract, Except.map] at hline
  | ok contract =>
      simp only [hcontract, Except.map, Except.ok.injEq, Command.generate.injEq] at hline
      exact ⟨contract, rfl, hline.symm⟩

/-- Variables change what is read from a command line in two places alone. -/
theorem read_eq_under (h : read {} args = .ok ⟨verbose, .generate alone⟩) :
    read environment args =
      if alone.outDir = none ∧ environment.get? outDirVariable = some "" then
        .error .invalidValue
      else .ok ⟨verbose, .generate (alone.under environment)⟩ := by
  obtain ⟨given, hgiven, halone⟩ := exists_generates h
  obtain ⟨hout, contract, hcontract, hline⟩ := hgiven.exists_optionsAlone halone
  rw [GenerateArgs.under_empty] at hline
  subst hline
  have hblank : ((given.values "out").head?).or (environment.get? outDirVariable) = some "" ↔
      (optionsAlone given contract).outDir = none ∧
        environment.get? outDirVariable = some "" := by
    simp [Option.or_eq_some_iff, hout, optionsAlone]
  rw [hgiven.read_eq, hgiven.readGenerate_eq, hcontract]
  simp only [hblank]
  split <;> rfl

theorem exists_alone (h : read environment args = .ok ⟨verbose, .generate line⟩) :
    ∃ alone, read {} args = .ok ⟨verbose, .generate alone⟩ := by
  obtain ⟨given, hgiven, hline⟩ := exists_generates h
  obtain ⟨hout, contract, hcontract, -⟩ := hgiven.exists_optionsAlone hline
  refine ⟨optionsAlone given contract, ?_⟩
  rw [hgiven.read_eq, hgiven.readGenerate_eq, hcontract]
  simp [hout, GenerateArgs.under_empty, Except.map]

/-! ## Precedence -/

theorem filter_eq_self_of_ne {value : Option String} (h : value ≠ some "") :
    value.filter (!·.isEmpty) = value := by
  cases value with
  | none => rfl
  | some text =>
      have htext : text ≠ "" := by simpa using h
      simp [Option.filter, htext]

structure Sources where
  option : Option String
  variable_ : Option String
  file : Option String
  standard : String

namespace Sources

/-- The first source that is there counts, and an empty variable is not there. -/
def ruled (sources : Sources) : String :=
  ((sources.option.or (sources.variable_.filter (!·.isEmpty))).or sources.file).getD
    sources.standard

/-- The first source that is there counts, whatever the variable is set to. -/
def taken (sources : Sources) : String :=
  ((sources.option.or sources.variable_).or sources.file).getD sources.standard

/-- The variable is set to nothing, and no option stands before it. -/
def Blank (sources : Sources) : Prop := sources.option = none ∧ sources.variable_ = some ""

instance (sources : Sources) : Decidable sources.Blank := inferInstanceAs (Decidable (_ ∧ _))

theorem taken_of_blank {sources : Sources} (h : sources.Blank) : sources.taken = "" := by
  simp [taken, h.1, h.2]

theorem taken_of_not_blank {sources : Sources} (h : ¬ sources.Blank) :
    sources.taken = sources.ruled := by
  cases hoption : sources.option with
  | some value => simp [taken, ruled, hoption]
  | none => rw [taken, ruled, filter_eq_self_of_ne fun hempty => h ⟨hoption, hempty⟩]

/-- Reading the variable once more behind the first time changes nothing. -/
theorem getD_eq_taken (sources : Sources) :
    (sources.option.or sources.variable_).getD
      (((sources.variable_.filter (!·.isEmpty)).or sources.file).getD sources.standard) =
        sources.taken := by
  cases hoption : sources.option <;> cases hvariable : sources.variable_ <;>
    simp [taken, hoption, hvariable]

end Sources

namespace GenerateArgs

def outDirSources (alone : GenerateArgs) (environment : Environment) (files : FileTree) :
    Sources where
  option := alone.outDir.map Path.text
  variable_ := environment.get? outDirVariable
  file := Settings.fileText? files alone.settings alone.contract "out_dir"
  standard := ".rpcforge"

def apiRootSources (alone : GenerateArgs) (environment : Environment) (files : FileTree) :
    Sources where
  option := alone.apiRoot
  variable_ := environment.get? apiRootVariable
  file := Settings.fileText? files alone.settings alone.contract "api_root"
  standard := "/api"

end GenerateArgs

theorem exists_resolve_iff : (∃ settings, line.resolve environment files = .ok settings) ↔
    ∃ settings, Settings.resolve files environment line.settings line.contract = .ok settings := by
  constructor
  · rintro ⟨settings, h⟩
    obtain ⟨base, hbase, -⟩ := bind_eq_ok_iff.mp h
    exact ⟨base, mapError_eq_ok_iff.mp hbase⟩
  · rintro ⟨base, hbase⟩
    exact ⟨_, bind_eq_ok_iff.mpr ⟨base, mapError_eq_ok_iff.mpr hbase, rfl⟩⟩

theorem of_resolve_under {settings : Settings}
    (h : (alone.under environment).resolve environment files = .ok settings) :
    settings.outDir.text = (alone.outDirSources environment files).taken ∧
      settings.apiRoot = (alone.apiRootSources environment files).taken := by
  obtain ⟨base, hbase, hsettings⟩ := bind_eq_ok_iff.mp h
  obtain ⟨hout, hroot⟩ := Settings.of_resolve (mapError_eq_ok_iff.mp hbase)
  obtain rfl := Except.ok.inj hsettings
  rw [← Sources.getD_eq_taken, ← Sources.getD_eq_taken]
  constructor
  · have htext (given : Option Path) :
        (given.getD base.outDir).text = (given.map Path.text).getD base.outDir.text := by
      cases given <;> rfl
    have hgiven : (alone.under environment).outDir.map Path.text =
        (alone.outDir.map Path.text).or (environment.get? outDirVariable) := by
      simp [GenerateArgs.under, Option.map_or, Function.comp_def]
    rw [GenerateArgs.override, htext, hgiven, hout]
    rfl
  · rw [GenerateArgs.override, hroot]
    rfl

/-! ## Variables with nothing in them -/

/-- Environments that differ in variables that are set to nothing at most. -/
def SameUpToEmpty (environment other : Environment) : Prop :=
  ∀ name, environment.nonEmpty? name = other.nonEmpty? name

theorem SameUpToEmpty.resolve (h : SameUpToEmpty environment other) (line : GenerateArgs)
    (files : FileTree) : line.resolve environment files = line.resolve other files := by
  simp only [GenerateArgs.resolve, Settings.resolve, Settings.applyEnvironment, h _]

/-- Before each variable that is set to nothing stands an option. -/
structure GenerateArgs.Covers (alone : GenerateArgs) (environment : Environment) : Prop where
  outDir : ¬ (alone.outDir = none ∧ environment.get? outDirVariable = some "")
  apiRoot : ¬ (alone.apiRoot = none ∧ environment.get? apiRootVariable = some "")

theorem SameUpToEmpty.or_get? {α : Type} {option : Option α} {name : String} (f : String → α)
    (h : SameUpToEmpty environment other)
    (hset : ¬ (option = none ∧ environment.get? name = some ""))
    (hother : ¬ (option = none ∧ other.get? name = some "")) :
    option.or ((environment.get? name).map f) = option.or ((other.get? name).map f) := by
  cases option with
  | some value => rfl
  | none =>
      have henvironment : environment.get? name ≠ some "" := by simpa using hset
      have hothers : other.get? name ≠ some "" := by simpa using hother
      have hname : environment.nonEmpty? name = other.nonEmpty? name := h name
      rw [Environment.nonEmpty?, filter_eq_self_of_ne henvironment, Environment.nonEmpty?,
        filter_eq_self_of_ne hothers] at hname
      rw [hname]

theorem SameUpToEmpty.read (h : SameUpToEmpty environment other)
    (halone : CommandLine.read {} args = .ok ⟨verbose, .generate alone⟩)
    (hset : alone.Covers environment) (hother : alone.Covers other) :
    CommandLine.read environment args = CommandLine.read other args := by
  have hout := h.or_get? Path.mk hset.outDir hother.outDir
  have hroot := h.or_get? id hset.apiRoot hother.apiRoot
  rw [Option.map_id_fun, id, id] at hroot
  rw [read_eq_under halone, read_eq_under halone, if_neg hset.outDir, if_neg hother.outDir,
    GenerateArgs.under, hout, hroot]
  rfl

/-- A setting comes from its option, else from its variable, else from the file, else it has its
standard value, and there are settings unless the file cannot be read.  This holds unless a
variable is set to nothing and no option stands before it: for the directory the command line is
refused then, and the root is empty.  Where an option stands before each variable that is set to
nothing, it is as if the variable were not set. -/
theorem settings_by_precedence (environment : Environment) (args : List String)
    (files : FileTree) :
    (∀ verbose line, read environment args = .ok ⟨verbose, .generate line⟩ →
      ∃ alone, read {} args = .ok ⟨verbose, .generate alone⟩) ∧
    ∀ verbose alone, read {} args = .ok ⟨verbose, .generate alone⟩ →
      ((alone.outDirSources environment files).Blank →
        read environment args = .error .invalidValue) ∧
      (¬ (alone.outDirSources environment files).Blank →
        ∃ line, read environment args = .ok ⟨verbose, .generate line⟩ ∧
          ((∃ settings, line.resolve environment files = .ok settings) ↔
            ∀ path, Settings.choose files alone.settings alone.contract = some path →
              ∃ text loaded, files.readText path = .ok text ∧
                Settings.ofText text = some loaded) ∧
          ∀ settings, line.resolve environment files = .ok settings →
            settings.options.outDir = ⟨(alone.outDirSources environment files).ruled⟩ ∧
            settings.options.apiRoot =
              if (alone.apiRootSources environment files).Blank then ""
              else (alone.apiRootSources environment files).ruled) ∧
      ∀ other, SameUpToEmpty environment other → alone.Covers environment → alone.Covers other →
        read environment args = read other args ∧
          ∀ line : GenerateArgs, line.resolve environment files = line.resolve other files := by
  refine ⟨fun verbose line => exists_alone, fun verbose alone halone => ⟨?refused, ?settings,
    fun other h hset hother => ⟨h.read halone hset hother, fun line => h.resolve line files⟩⟩⟩
  case refused =>
    rintro ⟨hoption, hvariable⟩
    rw [read_eq_under halone, if_pos ⟨Option.map_eq_none_iff.mp hoption, hvariable⟩]
  case settings =>
    intro hset
    refine ⟨alone.under environment, ?_, exists_resolve_iff.trans Settings.exists_resolve_iff,
      fun settings hsettings => ?_⟩
    · rw [read_eq_under halone, if_neg fun hblank =>
        hset ⟨Option.map_eq_none_iff.mpr hblank.1, hblank.2⟩]
    obtain ⟨hout, hroot⟩ := of_resolve_under hsettings
    constructor
    · rw [← Sources.taken_of_not_blank hset, ← hout]
      rfl
    · split
      next hblank => exact hroot.trans (Sources.taken_of_blank hblank)
      next hblank => exact hroot.trans (Sources.taken_of_not_blank hblank)

/-! The directory comes from its variable.  The root comes from its variable as well, which is
empty, and not from the file. -/

def blankRoot : Environment := Dict.ofList [(outDirVariable, "gen"), (apiRootVariable, "")]

def generateLine : List String := ["generate", "--schema", "s.json"]

def rootInFile : FileTree := ⟨[(["rpcforge.toml"], .file (.text "api_root = '/rpc'"))], []⟩

theorem generateLine_alone :
    read {} generateLine = .ok ⟨false, .generate { contract := ⟨"s.json"⟩ }⟩ := by
  decide +kernel

theorem resolve_blankRoot :
    (({ contract := ⟨"s.json"⟩ } : GenerateArgs).under blankRoot).resolve blankRoot rootInFile =
      .ok { outDir := ⟨"gen"⟩, apiRoot := "" } := by
  decide +kernel

theorem eq_of_read_blankRoot (h : read blankRoot generateLine = .ok ⟨false, .generate line⟩) :
    line = GenerateArgs.under { contract := ⟨"s.json"⟩ } blankRoot := by
  rw [read_eq_under generateLine_alone] at h
  cases h
  rfl

theorem settings_by_precedence_blank :
    ∃ line, read blankRoot generateLine = .ok ⟨false, .generate line⟩ ∧
      ∃ settings, line.resolve blankRoot rootInFile = .ok settings ∧
        settings.options.outDir = ⟨"gen"⟩ ∧ settings.options.apiRoot = "" := by
  obtain ⟨-, hsettings, -⟩ :=
    (settings_by_precedence blankRoot generateLine rootInFile).2 false _ generateLine_alone
  obtain ⟨line, hline, -, hall⟩ := hsettings (by decide)
  have hresolve := resolve_blankRoot
  rw [← eq_of_read_blankRoot hline] at hresolve
  obtain ⟨hout, hroot⟩ := hall _ hresolve
  exact ⟨line, hline, _, hresolve, hout, hroot⟩

/-- An empty variable counts where the command line is read. -/
theorem empty_variable_counts :
    ¬ ∀ (environment : Environment) (args : List String) (files : FileTree) (verbose : Bool)
        (alone : GenerateArgs), read {} args = .ok ⟨verbose, .generate alone⟩ →
      ∃ line, read environment args = .ok ⟨verbose, .generate line⟩ ∧
        ∀ settings, line.resolve environment files = .ok settings →
          settings.options.outDir = ⟨(alone.outDirSources environment files).ruled⟩ ∧
          settings.options.apiRoot = (alone.apiRootSources environment files).ruled := by
  intro hruled
  obtain ⟨line, hline, hall⟩ := hruled blankRoot generateLine rootInFile _ _ generateLine_alone
  have hresolve := resolve_blankRoot
  rw [← eq_of_read_blankRoot hline] at hresolve
  obtain ⟨-, hroot⟩ := hall _ hresolve
  revert hroot
  decide +kernel

end RpcContract.CommandLine

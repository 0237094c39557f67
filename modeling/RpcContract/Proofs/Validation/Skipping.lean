import RpcContract.Proofs.Contract.Models
import RpcContract.Proofs.Validation.CallRules

/-!
# Leaving parts of a call unchecked

What a wrapped handler does depends on its options through three things alone: whether the setup is
refused, which models are active, and whether all items of a stream are checked.  So skipping a part
is the same as having no model for it, and what is published can be chosen without regard to what is
checked.
-/

namespace RpcContract

variable {σ : Type}

theorem Handler.activeModel_eq (models : Models) (options : ValidationOptions) (part : CallPart) :
    activeModel models options part = (models.without options.skipChecks.resolve).get part := by
  rw [activeModel, Models.get_without]

/-- What a wrapped handler depends on. -/
theorem Handler.wrap_congr {models models' : Models} {options options' : ValidationOptions}
    (hguard : misconfiguration models options = misconfiguration models' options')
    (hactive : ∀ part, activeModel models options part = activeModel models' options' part)
    (hevery : options.checkEveryItem = options'.checkEveryItem)
    (validator : Validator σ) (handle : Handler σ) :
    wrap models validator options handle = wrap models' validator options' handle := by
  have hinput : checkInput models validator options = checkInput models' validator options' := by
    funext context part
    simp only [checkInput, hactive]
  have houtput : checkOutput models validator options =
      checkOutput models' validator options' := by
    funext request output
    simp only [checkOutput, hactive, hevery]
  funext context
  simp only [wrap, hguard, hinput, houtput]

namespace Layer

/-- The layer without the models that it skips, so that nothing is left to skip. -/
def pruned (layer : Layer σ) : Layer σ :=
  ⟨layer.models.without layer.options.skipChecks.resolve, layer.validator,
    { layer.options with skipChecks := .flag false }⟩

def withEmission (layer : Layer σ) (setting : SkipSetting) : Layer σ :=
  { layer with options := { layer.options with skipEmission := setting } }

def contribution (layer : Layer σ) : Contribution := contributionOf layer.models layer.options

theorem wrap_pruned {layer : Layer σ} (h : layer.Admits) (hpruned : layer.pruned.Admits)
    (handle : Handler σ) : layer.pruned.wrap handle = layer.wrap handle := by
  have hguard : Handler.misconfiguration layer.pruned.models layer.pruned.options =
      Handler.misconfiguration layer.models layer.options := by
    rw [layer.pruned.misconfiguration_eq_none_iff.mpr hpruned,
      layer.misconfiguration_eq_none_iff.mpr h]
  have hactive (part : CallPart) :
      Handler.activeModel layer.pruned.models layer.pruned.options part =
        Handler.activeModel layer.models layer.options part := by
    rw [Handler.activeModel_eq, Handler.activeModel_eq, Models.get_without]
    simp [pruned, SkipSetting.Covers]
  exact Handler.wrap_congr hguard hactive rfl layer.validator handle

theorem wrap_withEmission (layer : Layer σ) (setting : SkipSetting) (handle : Handler σ) :
    (layer.withEmission setting).wrap handle = layer.wrap handle :=
  Handler.wrap_congr rfl (fun _ => rfl) rfl layer.validator handle

theorem admits_observed {layer : Layer σ} (h : layer.Admits) (number : Nat) :
    (layer.observed number).Admits :=
  (layer.observed number).misconfiguration_eq_none_iff.mp
    (layer.misconfiguration_eq_none_iff.mpr h)

end Layer

/-- Where neither setup is refused, a call behind a layer that skips parts is a call behind the
layer without the models of those parts: the events are the same, and so is the end, a stream with
all that will be read of it included.  What is published does not bear on any call, and what is
skipped in calls or how many items are checked does not bear on what is published. -/
theorem skipped_is_absent (layer : Layer σ) (handle : Handler σ) :
    (layer.Admits → layer.pruned.Admits → ∀ context state,
      ((layer.pruned.observed 0).wrap (handle.observed 1) context).runFrom (.start state) =
        ((layer.observed 0).wrap (handle.observed 1) context).runFrom (.start state)) ∧
    (∀ setting, (layer.withEmission setting).wrap handle = layer.wrap handle) ∧
    ∀ setting every,
      ({ layer with options :=
          { layer.options with skipChecks := setting, checkEveryItem := every } } :
        Layer σ).contribution = layer.contribution := by
  refine ⟨fun h hpruned context state => ?_, fun setting => layer.wrap_withEmission setting handle,
    fun _ _ => rfl⟩
  have hwrap : (layer.pruned.observed 0).wrap (handle.observed 1) =
      (layer.observed 0).wrap (handle.observed 1) :=
    Layer.wrap_pruned (Layer.admits_observed h 0) (Layer.admits_observed hpruned 0) _
  rw [hwrap]

/-! A layer that skips the body, which would be refused, and checks all items of a stream. -/

def lenient : Layer Unit where
  models := { body := some (.bool false), query := some (.bool true), iteration := some .null }
  validator _ _ info :=
    if info.part = .body then throw (.validation .body "Refused.") else pure none
  options := { skipChecks := .list [.body, .output], checkEveryItem := true }

def streaming : Handler Unit := fun _ => pure (.stream (.source (pure (some (.ok .null)))))

def callOf (layer : Layer Unit) : Except HttpError (Output (Observed Unit)) × Observed Unit :=
  ((layer.observed 0).wrap (streaming.observed 1) { info := ⟨.post, "/items"⟩ }).runFrom (.start ())

theorem skipped_is_absent_lenient :
    lenient.Admits ∧ lenient.pruned.Admits ∧ lenient.pruned.models.body = none ∧
      callOf lenient.pruned = callOf lenient ∧ (callOf lenient).2.events.length = 2 := by
  have hadmits : lenient.Admits := lenient.misconfiguration_eq_none_iff.mp rfl
  have hpruned : lenient.pruned.Admits := lenient.pruned.misconfiguration_eq_none_iff.mp rfl
  exact ⟨hadmits, hpruned, rfl,
    (skipped_is_absent lenient streaming).1 hadmits hpruned { info := ⟨.post, "/items"⟩ } (), rfl⟩

end RpcContract

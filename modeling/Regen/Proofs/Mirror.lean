import Regen.Proofs.Coherence
import Regen.Proofs.RegisteredOutputs

/-!
# Mirrors of the additional inputs

A mirror is a plug-in that makes one output of each additional input, and whose handler replaces the
output of an input that is added. A full pass makes the outputs of all inputs, in their order, over
any tables that an earlier history left: inputs and outputs are texts, of which `==` takes no two for
equal, so that what is kept is what would be made. Inputs of one path are left out, since a pass fails
over them.
-/

namespace Regen

variable {S σ : Type}

open GeneratedOutput (Distinct hintNames)

/-- The output that mirrors an input: the path is its hint name. -/
def AdditionalInput.mirrored (render : String → String) (input : AdditionalInput) :
    GeneratedOutput :=
  ⟨input.path, render input.text, .source⟩

/-- A stage over the leaf of the additional inputs. -/
def Stage.mirroring (stageName : String) (transform : Value → Callback σ Value) : Stage σ :=
  .mapping ⟨⟨1⟩, stageName⟩ (.leaf ⟨⟨0⟩, Declaration.additionalInputsName⟩) transform

/-- The stage is registered, and the handler of added inputs. -/
def Pipeline.mirroring (name stageName : String) (transform : Value → Callback σ Value)
    (handler : EditHandler σ) : Pipeline S σ where
  shape := {
    generator := name
    outputs := [(⟨⟨1⟩, stageName⟩, .source)]
    handlers := [(Edit.inputAddedKind, handler)] }
  leaves := []
  additionalInputs := some ⟨⟨0⟩, Declaration.additionalInputsName⟩
  outputs := [⟨.mirroring stageName transform, .source⟩]

/-- A plug-in that makes an output of each additional input. -/
structure Mirror (S σ : Type) where
  generator : Generator S σ
  /-- The text of the output for the text of the input. -/
  render : String → String
  stageName : String
  transform : Value → Callback σ Value
  handler : EditHandler σ
  execute_eq : generator.execute = fun _ => Execution.runPipeline
  declares : generator.Declares (.ok (.mirroring generator.name stageName transform handler))
  handles : ∀ {pipeline : Pipeline S σ}, pipeline.DeclaredBy generator →
    pipeline.shape.handler? Edit.inputAddedKind = some handler
  pure_transform : ∀ value, (transform value).Pure
  transform_input : ∀ input, transform (.input input) = .done (.output (input.mirrored render))
  handle_input : ∀ input context, handler.handle (.input input) context =
    .ask (Editing.Request.replaceOutput (input.mirrored render)) fun _ => .done ()

/-! For every rendering of the texts there is a mirror. -/

namespace Rendering

variable (render : String → String)

def transform : Value → Callback σ Value
  | .input input => .done (.output (input.mirrored render))
  | value => .done value

def handler : EditHandler σ where
  accepts := "input"
  handle
    | .input input, _ =>
      .ask (Editing.Request.replaceOutput (input.mirrored render)) fun _ => .done ()
    | _, _ => .done ()

def generator (identity : Nat) (name : String) : Generator S σ where
  identity
  name
  declare :=
    .ask .additionalInputs fun inputs =>
      .ask (.newStage "mirrored") fun stage =>
        .ask (.registerOutput (.mapping stage (.leaf inputs) (transform render)) .source) fun _ =>
          .ask (.onEdit Edit.inputAddedKind (handler render)) fun _ => .done ()

theorem declares_generator (identity : Nat) (name : String) :
    (generator render identity name : Generator S σ).Declares
      (.ok (.mirroring name "mirrored" (transform render) (handler render))) := by
  intro fresh ambient
  exact .built rfl (StageId.shift_injective fresh) ⟨rfl, rfl, rfl⟩ rfl

end Rendering

/-- A mirror for a rendering. -/
def Mirror.rendering (identity : Nat) (name : String) (render : String → String) : Mirror S σ where
  generator := Rendering.generator render identity name
  render
  stageName := "mirrored"
  transform := Rendering.transform render
  handler := Rendering.handler render
  execute_eq := rfl
  declares := Rendering.declares_generator render identity name
  handles := by
    rintro pipeline ⟨fresh, ambient, ended, hrun, rfl⟩
    cases hrun
    rfl
  pure_transform value := by cases value <;> exact Callback.pure_done _
  transform_input _ := rfl
  handle_input _ _ := rfl

/-! What a full pass makes of a mirror. -/

namespace Mirror

variable (mirror : Mirror S σ)

def output (input : AdditionalInput) : GeneratedOutput :=
  input.mirrored mirror.render

def pipeline : Pipeline S σ :=
  .mirroring mirror.generator.name mirror.stageName mirror.transform mirror.handler

/-- The leaf and the stage that is registered. -/
def graph : StageGraph σ where
  Has stage := stage = .leaf ⟨⟨0⟩, Declaration.additionalInputsName⟩ ∨
    stage = .mirroring mirror.stageName mirror.transform
  has_source hm hs := by
    rcases hm with rfl | rfl
    · cases hs
    · exact .inl (List.mem_singleton.mp hs)
  eq_of_id hm ho he := by
    rcases hm with rfl | rfl <;> rcases ho with rfl | rfl <;> first | rfl | cases he

theorem plain_pipeline : mirror.pipeline.Plain mirror.graph where
  standard := by
    rintro stage (rfl | rfl)
    · exact ⟨Comparer.total_equality, rfl⟩
    · exact ⟨⟨Transform.pure_single mirror.pure_transform, Comparer.total_equality⟩, rfl⟩
  productive := by
    rintro info source transform same (h | h) value ambient
    · cases h
    · cases h
      exact Transform.single_ne_nil mirror.transform value ambient
  outputs binding hm := by
    obtain rfl := List.mem_singleton.mp hm
    exact .inr rfl
  leaves info hm := by
    obtain rfl := List.mem_singleton.mp hm
    exact .inl rfl
  fed := by
    rintro stage (rfl | rfl) hl
    · exact List.mem_singleton.mpr rfl
    · exact hl.elim
  distinct := List.nodup_singleton _

/-- The leaf holds inputs and the stage outputs. -/
def typing : mirror.graph.Typing where
  Holds id value :=
    if id = ⟨0⟩ then ∃ input, value = .input input else ∃ output, value = .output output
  made {info source transform same value new} hm hv hnew := by
    rcases hm with hm | hm
    · cases hm
    · cases hm
      obtain ⟨input, rfl⟩ := hv
      obtain ⟨ambient, after, hrun⟩ := hnew
      change (Transform.single mirror.transform (.input input)).run Ambient.answer ambient = _ at hrun
      rw [Transform.single_apply, mirror.transform_input] at hrun
      cases hrun
      exact List.forall_mem_singleton.mpr ⟨_, rfl⟩
  gathered hm := by rcases hm with hm | hm <;> cases hm
  paired hm := by rcases hm with hm | hm <;> cases hm

theorem faithful_pipeline : (mirror.pipeline : Pipeline S σ).Faithful mirror.typing.identity where
  equal := by
    refine StageGraph.Typing.equalAlike_identity fun stage value other hm hv => ?_
    rcases hm with rfl | rfl
    · obtain ⟨input, rfl⟩ := hv
      exact (Value.strict_input input other).mp
    · obtain ⟨output, rfl⟩ := hv
      exact (Value.strict_output output other).mp
  admits := by
    rintro snapshot inputs leaf values (rfl | rfl) hl hgiven value hv
    · have hvalues : inputs.map Value.input = values := Except.ok.inj (Option.some.inj hgiven)
      subst hvalues
      obtain ⟨input, -, rfl⟩ := List.mem_map.mp hv
      exact ⟨rfl, input, rfl⟩
    · exact hl.elim
  registered _ _ _ _ h := h.1

/-- The mirror as the only plug-in that anything is asked of. -/
def plugins : PlugIns S σ where
  Has generator := generator = mirror.generator
  declared _ := .ok mirror.pipeline
  eq_of_identity h h' _ := h.trans h'.symm
  execute_eq h := by rw [h, mirror.execute_eq]
  declares h := by rw [h]; exact mirror.declares
  plain _ h := by
    cases h
    exact ⟨_, mirror.plain_pipeline, _, mirror.faithful_pipeline⟩

theorem hintNames_output (inputs : List AdditionalInput) :
    hintNames (inputs.map mirror.output) = inputs.map (·.path) := by
  rw [hintNames, List.map_map]
  rfl

theorem outputsOf_output (inputs : List AdditionalInput) :
    outputsOf .source (inputs.map fun input => Value.output (mirror.output input)) =
      inputs.map mirror.output := by
  induction inputs with
  | nil => rfl
  | cons input rest ih => exact congrArg (mirror.output input :: ·) ih

/-- What the stage shows of the inputs. -/
theorem showings_pipeline (sample : Ambient σ) (snapshot : S) (inputs : List AdditionalInput) :
    mirror.pipeline.showings sample snapshot inputs =
      [(.source, .ok (inputs.map fun input => .output (mirror.output input)))] := by
  have himages : images (Stage.image ⟨⟨1⟩, mirror.stageName⟩ (.single mirror.transform) sample)
      (inputs.map .input) = .ok (inputs.map fun input => .output (mirror.output input)) := by
    induction inputs with
    | nil => rfl
    | cons input rest ih =>
      have himage : Stage.image ⟨⟨1⟩, mirror.stageName⟩ (.single mirror.transform) sample
          (.input input) = .ok [.output (mirror.output input)] := by
        rw [Stage.image, Transform.single, mirror.transform_input]
        rfl
      exact images_cons_ok himage ih
  have hgiven : mirror.pipeline.given snapshot inputs ⟨0⟩ = some (.ok (inputs.map .input)) := rfl
  have hleaf := PassTables.empty.leafShows_of_given hgiven
  change [(OutputKind.source, do
    images (Stage.image ⟨⟨1⟩, mirror.stageName⟩ (.single mirror.transform) sample)
      (← PassTables.empty.leafShows (mirror.pipeline.given snapshot inputs) ⟨0⟩))] = _
  rw [hleaf]
  exact congrArg (fun shown => [(OutputKind.source, shown)]) himages

/-- Over inputs of different paths a pass makes the output of each input, in their order. -/
theorem report_generator (sample : Ambient σ) {options : DriverOptions}
    (hsource : options.isEnabled .source = true) (snapshot : S) {inputs : List AdditionalInput}
    (hdistinct : Distinct (inputs.map mirror.output)) :
    mirror.plugins.report sample options snapshot inputs mirror.generator =
      ⟨inputs.map mirror.output, [], none⟩ := by
  have hgather : gather mirror.generator.name options
      (mirror.pipeline.showings sample snapshot inputs) = .ok (inputs.map mirror.output, []) := by
    rw [showings_pipeline, gather, List.foldlM_cons, gatherOne, if_pos hsource]
    dsimp only
    rw [outputsOf_output, accept_distinct mirror.generator.name [] _ hdistinct]
    rfl
  have hdeclared : mirror.plugins.declared mirror.generator = .ok mirror.pipeline := rfl
  rw [PlugIns.report, hdeclared]
  dsimp only
  rw [hgather]

end Mirror

end Regen

import NameAdvisor.Settings.Basic

/-!
# Settings chosen by the user

## Main definitions

* `SettingsOptions`: the values that a user may choose when a settings file is written.
* `SettingsOptions.orElse`: two choices together, the later one first.
* `Settings.withOptions`: settings with the chosen values.
-/

namespace NameAdvisor

/-- Values chosen for a settings file; what is not chosen stays as it is. -/
structure SettingsOptions where
  provider : Option ProviderPolicy := none
  openaiKey : Option String := none
  anthropicKey : Option String := none
  geminiKey : Option String := none
  ollamaModel : Option String := none
  ollamaEndpoint : Option String := none
  deriving DecidableEq, Repr, Inhabited

namespace SettingsOptions

/-- The choices of `later`, and those of `earlier` where `later` chooses nothing. -/
def orElse (later earlier : SettingsOptions) : SettingsOptions where
  provider := later.provider.or earlier.provider
  openaiKey := later.openaiKey.or earlier.openaiKey
  anthropicKey := later.anthropicKey.or earlier.anthropicKey
  geminiKey := later.geminiKey.or earlier.geminiKey
  ollamaModel := later.ollamaModel.or earlier.ollamaModel
  ollamaEndpoint := later.ollamaEndpoint.or earlier.ollamaEndpoint

end SettingsOptions

namespace Settings

/-- The settings with the chosen values in them. -/
def withOptions (s : Settings) (o : SettingsOptions) : Settings where
  provider := o.provider.getD s.provider
  copilot := s.copilot
  openai := { s.openai with apiKey := o.openaiKey.getD s.openai.apiKey }
  anthropic := { s.anthropic with apiKey := o.anthropicKey.getD s.anthropic.apiKey }
  gemini := { s.gemini with apiKey := o.geminiKey.getD s.gemini.apiKey }
  ollama := { s.ollama with
    model := o.ollamaModel.getD s.ollama.model
    endpoint := o.ollamaEndpoint.getD s.ollama.endpoint }

/-- Choosing twice is choosing once, the later choice first. -/
theorem withOptions_withOptions (s : Settings) (earlier later : SettingsOptions) :
    (s.withOptions earlier).withOptions later = s.withOptions (later.orElse earlier) := by
  simp only [withOptions, SettingsOptions.orElse]
  cases later.provider <;> cases later.openaiKey <;> cases later.anthropicKey <;> cases later.geminiKey <;>
    cases later.ollamaModel <;> cases later.ollamaEndpoint <;> rfl

end Settings

end NameAdvisor

import Switchboard.Config.Api
import Switchboard.Proofs.Outcome

/-!
# Switchboard.Proofs.Config.Valid

Which entries of a configuration can be used.

* `Valid` — what the rules ask of an entry, all at once;
* `validate_eq_ok` — such entries pass, and no others;
* `validate_eq_error` — an entry that does not pass is reported under its name.
-/

namespace Switchboard

/-! ## Rules -/

namespace Rule

variable {api value field : String} {e : ConfigError}

theorem notEmpty_eq_ok : notEmpty api value field = .ok () ↔ Text.isBlank value = false := by
  unfold notEmpty
  cases Text.isBlank value <;> simp

theorem required_eq_ok {value : Option String} :
    required api value field = .ok () ↔ ∃ v, value = some v ∧ Text.isBlank v = false := by
  cases value with
  | none => simp [required]
  | some v => simp [required, notEmpty_eq_ok]

theorem isUrl_eq_ok : isUrl api value field = .ok () ↔ hasScheme value = true := by
  unfold isUrl
  cases hasScheme value <;> simp

/-- A rule reports the API that it was asked about. -/
theorem notEmpty_eq_error (h : notEmpty api value field = .error e) :
    ∃ fault, e = .invalid api fault := by
  unfold notEmpty at h
  split at h
  · exact ⟨_, (Except.error.inj h).symm⟩
  · cases h

theorem required_eq_error {value : Option String} (h : required api value field = .error e) :
    ∃ fault, e = .invalid api fault := by
  cases value with
  | none => exact ⟨_, (Except.error.inj h).symm⟩
  | some v => exact notEmpty_eq_error h

theorem isUrl_eq_error (h : isUrl api value field = .error e) :
    ∃ fault, e = .invalid api fault := by
  unfold isUrl at h
  split at h
  · cases h
  · exact ⟨_, (Except.error.inj h).symm⟩

end Rule

/-! ## Entries -/

namespace Api

/-- What the rules ask of an entry. -/
structure Valid (api : Api) : Prop where
  name : Text.isBlank api.name = false
  endpoint : Text.isBlank api.endpoint = false
  url : Rule.hasScheme api.endpoint = true
  realtimeUrl : ∀ url, api.realtimeEndpoint = some url → Rule.hasScheme url = true
  apiKey : api.authorization = .apiKey → ∃ key, api.apiKey = some key ∧ Text.isBlank key = false
  region : api.authorization = .awsIam →
    ∃ region, api.region = some region ∧ Text.isBlank region = false

variable {api : Api} {e : ConfigError}

/-- The rule for the place that an entry names for subscriptions. -/
def checkRealtime (api : Api) : Except ConfigError Unit :=
  match api.realtimeEndpoint with
  | some url => Rule.isUrl api.name url "realtimeEndpoint"
  | none => .ok ()

/-- The rule for what an authorization needs. -/
def checkAuthorization (api : Api) : Except ConfigError Unit :=
  match api.authorization with
  | .apiKey => Rule.required api.name api.apiKey "apiKey"
  | .awsIam => Rule.required api.name api.region "region"
  | _ => .ok ()

theorem validate_eq (api : Api) :
    api.validate = (do
      Rule.notEmpty api.name api.name "name"
      Rule.notEmpty api.name api.endpoint "endpoint"
      Rule.isUrl api.name api.endpoint "endpoint"
      api.checkRealtime
      api.checkAuthorization) := by
  unfold validate checkRealtime
  cases api.realtimeEndpoint <;> rfl

theorem checkRealtime_eq_ok :
    api.checkRealtime = .ok () ↔
      ∀ url, api.realtimeEndpoint = some url → Rule.hasScheme url = true := by
  unfold checkRealtime
  cases api.realtimeEndpoint <;> simp [Rule.isUrl_eq_ok]

theorem checkAuthorization_eq_ok :
    api.checkAuthorization = .ok () ↔
      (api.authorization = .apiKey →
        ∃ key, api.apiKey = some key ∧ Text.isBlank key = false) ∧
      (api.authorization = .awsIam →
        ∃ region, api.region = some region ∧ Text.isBlank region = false) := by
  unfold checkAuthorization
  cases api.authorization <;> simp [Rule.required_eq_ok]

/-- The entries that pass are the valid ones. -/
theorem validate_eq_ok : api.validate = .ok () ↔ api.Valid := by
  rw [validate_eq]
  simp only [check_eq_ok, Rule.notEmpty_eq_ok, Rule.isUrl_eq_ok, checkRealtime_eq_ok,
    checkAuthorization_eq_ok]
  constructor
  · rintro ⟨name, endpoint, url, realtimeUrl, apiKey, region⟩
    exact ⟨name, endpoint, url, realtimeUrl, apiKey, region⟩
  · rintro ⟨name, endpoint, url, realtimeUrl, apiKey, region⟩
    exact ⟨name, endpoint, url, realtimeUrl, apiKey, region⟩

theorem checkRealtime_eq_error (h : api.checkRealtime = .error e) :
    ∃ fault, e = .invalid api.name fault := by
  unfold checkRealtime at h
  split at h
  · exact Rule.isUrl_eq_error h
  · cases h

theorem checkAuthorization_eq_error (h : api.checkAuthorization = .error e) :
    ∃ fault, e = .invalid api.name fault := by
  unfold checkAuthorization at h
  split at h
  · exact Rule.required_eq_error h
  · exact Rule.required_eq_error h
  · cases h

/-- An entry that does not pass is reported under its name. -/
theorem validate_eq_error (h : api.validate = .error e) :
    ∃ fault, e = .invalid api.name fault := by
  rw [validate_eq] at h
  simp only [bind_eq_error] at h
  rcases h with h | ⟨_, -, h | ⟨_, -, h | ⟨_, -, h | ⟨_, -, h⟩⟩⟩⟩
  · exact Rule.notEmpty_eq_error h
  · exact Rule.notEmpty_eq_error h
  · exact Rule.isUrl_eq_error h
  · exact checkRealtime_eq_error h
  · exact checkAuthorization_eq_error h

end Api
end Switchboard

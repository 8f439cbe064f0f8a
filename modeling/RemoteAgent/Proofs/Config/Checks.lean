import RemoteAgent.Agent.Site

/-! The checks of a configuration. Whatever a configuration is loaded from, it has passed them. -/

namespace RemoteAgent

namespace Config

variable {c d : Config} {tempDir : String} {read? : String → Option Toml.Value}

theorem validate_eq_ok_iff : c.validate = .ok d ↔
    (c.channel.commandPrefix ≠ c.channel.dataPrefix ∧
      leastMessageSize ≤ c.channel.maxMessageSize) ∧ c = d := by
  rw [validate]
  split
  · next hsame => exact ⟨fun h => (by cases h), fun h => (h.1.1 hsame).elim⟩
  · next hne =>
    split
    · next hsmall => exact ⟨fun h => (by cases h), fun h => (Nat.not_lt.2 h.1.2 hsmall).elim⟩
    · next hlarge =>
      rw [Except.ok.injEq]
      exact ⟨fun h => ⟨⟨hne, Nat.not_lt.1 hlarge⟩, h⟩, fun h => h.2⟩

theorem validate_of_validate (h : c.validate = .ok d) : d.validate = .ok d := by
  obtain ⟨hchecks, rfl⟩ := validate_eq_ok_iff.1 h
  exact h

theorem validate_standard (tempDir : String) :
    (standard tempDir).validate = .ok (standard tempDir) :=
  validate_eq_ok_iff.2 ⟨⟨(by decide : "mbam-" ≠ "mbamd-"),
    (by decide : leastMessageSize ≤ Channel.defaultMaxMessageSize)⟩, rfl⟩

theorem validate_of_ofText {text : String} (h : ofText read? tempDir text = .ok c) :
    c.validate = .ok c := by
  rw [ofText] at h
  split at h
  · exact validate_of_validate h
  · cases h

theorem validate_of_load {path : String} {content : Except IoError (List UInt8)}
    (h : load read? tempDir path content = .ok c) : c.validate = .ok c := by
  rw [load] at h
  split at h
  · exact validate_of_ofText h
  · cases h

theorem validate_of_ofEnvironment {path : Option String}
    {content : String → Except IoError (List UInt8)}
    (h : ofEnvironment read? tempDir path content = .ok c) : c.validate = .ok c := by
  rw [ofEnvironment] at h
  split at h
  · exact validate_of_load h
  · cases h
    exact validate_standard tempDir

end Config

theorem Site.validate_of_config {p : Site} {path : Option String} {c : Config}
    (h : p.config path = .ok c) : c.validate = .ok c := by
  cases path with
  | some path => exact Config.validate_of_load h
  | none => exact Config.validate_of_ofEnvironment h

end RemoteAgent

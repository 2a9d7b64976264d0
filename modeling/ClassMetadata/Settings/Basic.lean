import ClassMetadata.Version

/-!
# Settings

Which metadata is accepted: a range of versions, open above when no maximum is set, and whether
pre-release compilers are trusted. Settings are valid when the range is not empty.
-/

namespace ClassMetadata

/-- Which metadata is accepted. -/
structure Settings where
  minVersion : Version
  maxVersion : Option Version
  allowPreRelease : Bool
  deriving DecidableEq, Repr

/-- Why there are no settings. -/
inductive SettingsError where
  /-- The text does not say what the settings are. -/
  | unreadable
  /-- No version is both new and old enough. -/
  | emptyRange (maximum minimum : Version)
  deriving DecidableEq, Repr

/-- The wording of a fault in settings. -/
def SettingsError.message : SettingsError → String
  | unreadable => "Failed to parse decoder config"
  | emptyRange maximum minimum =>
    "Invalid decoder config: max_version " ++ maximum.text ++ " is older than min_version "
      ++ minimum.text

namespace Settings

/-- The settings when nothing is said. -/
def default : Settings := ⟨.minimumSupported, none, true⟩

/-- The settings, if their range of versions is not empty. -/
def validate (settings : Settings) : Except SettingsError Settings :=
  match settings.maxVersion with
  | some maximum =>
    if maximum < settings.minVersion then .error (.emptyRange maximum settings.minVersion)
    else .ok settings
  | none => .ok settings

end Settings

end ClassMetadata

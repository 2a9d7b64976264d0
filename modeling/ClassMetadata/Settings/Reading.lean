import ClassMetadata.Settings.Basic
import ClassMetadata.Settings.Document

/-!
# Reading settings

A settings document may set `min_version` and `max_version` to the text of a version and
`allow_pre_release` to a truth value, in any order and each at most once. What it does not set keeps
its default; any other key, or another kind of value, makes the document unreadable.
-/

namespace ClassMetadata.Settings

/-- The settings after one assignment. -/
def assign (settings : Settings) (a : Document.Assignment) : Option Settings :=
  match a.key, a.value with
  | "min_version", .text text =>
    (Version.ofText text).toOption.map fun v => { settings with minVersion := v }
  | "max_version", .text text =>
    (Version.ofText text).toOption.map fun v => { settings with maxVersion := some v }
  | "allow_pre_release", .truth value => some { settings with allowPreRelease := value }
  | _, _ => none

/-- The settings that assignments make, if no key is set twice. -/
def ofAssignments (assignments : List Document.Assignment) : Option Settings :=
  if (assignments.map (·.key)).Nodup then assignments.foldlM assign default else none

/-- The settings in a document. -/
def ofText (text : String) : Except SettingsError Settings :=
  match (Document.ofText text).bind ofAssignments with
  | some settings => settings.validate
  | none => .error .unreadable

end ClassMetadata.Settings

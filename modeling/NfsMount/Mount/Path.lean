import Mathlib.Data.List.Basic

/-!
# `NfsMount.Mount.Path`: the components of a Windows path

The model of `nfs-mount/src/path.rs`. A path is cut at both kinds of separator, and empty
components are dropped. An NFS path is written with one kind.
-/

set_option autoImplicit false

namespace NfsMount.Mount

/-- `|c| c == '\\' || c == '/'`. -/
def isSeparator (c : Char) : Bool := c == '\\' || c == '/'

/-- `to_nfs_components`. -/
def toNfsComponents (windowsPath : String) : List String :=
  ((windowsPath.toList.splitOnP isSeparator).map String.ofList).filter fun s => !s.isEmpty

/-- A path without separators is its only component. -/
theorem toNfsComponents_of_forall {s : List Char} (hs : ∀ c ∈ s, isSeparator c = false)
    (hne : s ≠ []) : toNfsComponents (String.ofList s) = [String.ofList s] := by
  have hsplit : s.splitOnP isSeparator = [s] :=
    List.splitOnP_eq_singleton hs
  have hnonempty : (String.ofList s).isEmpty = false := by
    simpa [String.isEmpty_iff] using hne
  rw [toNfsComponents, String.toList_ofList, hsplit]
  simp [hnonempty]

example : toNfsComponents "\\folder\\sub/file.txt" = ["folder", "sub", "file.txt"] := by
  decide +kernel

/-- `to_nfs_path`. -/
def toNfsPath (components : List String) : String :=
  if components.isEmpty then "/" else "/" ++ "/".intercalate components

/-- `split_at` in front of the last component leaves that one. -/
theorem splitAt_snd_ne_nil {components : List String} (h : ¬ components.isEmpty) :
    (components.splitAt (components.length - 1)).2 ≠ [] := by
  have hne : components ≠ [] := by simpa using h
  have hpos := List.length_pos_iff.mpr hne
  rw [List.splitAt_eq, ← List.length_pos_iff, List.length_drop]
  omega

/-- `split_parent_name`. -/
def splitParentName (windowsPath : String) : Option (List String × String) :=
  let components := toNfsComponents windowsPath
  if h : components.isEmpty then
    none
  else
    let split := components.splitAt (components.length - 1)
    some (split.1, split.2.head (splitAt_snd_ne_nil h))

end NfsMount.Mount

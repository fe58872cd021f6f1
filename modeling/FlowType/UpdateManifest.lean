import Mathlib.Algebra.Group.Nat.Defs
import Mathlib.Data.Prod.Lex
import Mathlib.Order.Compare
import Mathlib.Order.WithBot

/-! The signed manifest of a Windows release, the comparison of version numbers, and the
verification of an installer. A signature is kept as the key, or the certificate, it is
sound for; the texts of errors are left out. -/
namespace FlowType

namespace UpdateWorker

def RELEASE_DOWNLOAD_PREFIX : String := "https://github.com/Henry10088/FlowType/releases/download/"

def RELEASE_TAG_PREFIX : String := "https://github.com/Henry10088/FlowType/releases/tag/"

def UPDATE_KEY_ID : String := "flowtype-update-2026-v2"

def UPDATE_PLATFORM : String := "windows"

def MAX_INSTALLER_BYTES : Nat := 200 * 1024 * 1024

structure PlatformAsset where
  url : String
  sha256 : String
  size : Nat
  deriving DecidableEq, Repr

/-- `signer` is the key under which the signature of the downloaded bytes is sound. -/
structure UpdateManifest where
  schema : Nat := 2
  keyId : String := UPDATE_KEY_ID
  platform : String := UPDATE_PLATFORM
  version : String
  publishedAt : String := ""
  releaseUrl : String
  notesZhCn : String := ""
  windows : PlatformAsset
  signer : Option String
  deriving DecidableEq, Repr

/-- What is read from an installer: `signer` is the certificate of its Authenticode
signature, if that is acceptable. -/
structure Installer where
  length : Nat
  sha256 : String
  signer : Option String
  deriving DecidableEq, Repr

/-- What is compiled into the program. -/
structure Build where
  version : String
  updateKey : String
  certificate : Option String
  deriving DecidableEq, Repr

abbrev VersionNumber := Nat ×ₗ Nat ×ₗ Nat

/-- `parse` of an unsigned number of 64 bits. -/
def parseU64 (text : List Char) : Option Nat :=
  let digits := match text with
    | '+' :: rest => rest
    | _ => text
  if digits = [] ∨ ¬ digits.all Char.isDigit then none
  else
    let value := digits.foldl (fun n c => 10 * n + (c.toNat - 48)) 0
    if value < 2 ^ 64 then some value else none

def parseVersion (value : String) : Option VersionNumber :=
  match (value.toList.splitOn '.').map parseU64 with
  | [some major, some minor, some patch] => some (toLex (major, toLex (minor, patch)))
  | _ => none

def compareVersions (left right : String) : Option Ordering := do
  let left ← parseVersion left
  let right ← parseVersion right
  pure (cmp left right)

example : compareVersions "0.2.0" "0.1.18" = some .gt := by decide

example : compareVersions "0.2" "0.1.18" = none := by decide

def isHexDigit (c : Char) : Bool :=
  c.isDigit || ('a' ≤ c && c ≤ 'f') || ('A' ≤ c && c ≤ 'F')

def validSha256 (value : String) : Bool :=
  value.utf8ByteSize == 64 && value.toList.all isHexDigit

def validateManifest (manifest : UpdateManifest) : Bool :=
  let tag := "windows-v" ++ manifest.version
  manifest.schema == 2 && manifest.keyId == UPDATE_KEY_ID &&
    manifest.platform == UPDATE_PLATFORM &&
    (parseVersion manifest.version).isSome &&
    manifest.publishedAt.utf8ByteSize ≤ 40 && manifest.notesZhCn.utf8ByteSize ≤ 8192 &&
    manifest.releaseUrl.utf8ByteSize ≤ 2048 &&
    manifest.releaseUrl == RELEASE_TAG_PREFIX ++ tag &&
    (RELEASE_DOWNLOAD_PREFIX ++ tag ++ "/").toList.isPrefixOf manifest.windows.url.toList &&
    manifest.windows.url.utf8ByteSize ≤ 2048 && 0 < manifest.windows.size &&
    manifest.windows.size ≤ MAX_INSTALLER_BYTES && validSha256 manifest.windows.sha256

/-- The signature under the built-in key, and the fields. -/
def verifyManifest (build : Build) (manifest : UpdateManifest) : Bool :=
  manifest.signer == some build.updateKey && validateManifest manifest

theorem parseVersion_isSome_of_verifyManifest {build : Build} {manifest : UpdateManifest}
    (h : verifyManifest build manifest = true) : (parseVersion manifest.version).isSome := by
  simp only [verifyManifest, validateManifest, Bool.and_eq_true] at h
  tauto

def fileName (url : String) : Option String :=
  if '/' ∈ url.toList then
    ((url.toList.splitOn '/').getLast?.filter fun name =>
      !name.isEmpty && !name.contains (Char.ofNat 0x5c)).map String.ofList
  else none

/-- `verify_installer` on what the path holds. -/
def verifyInstaller (build : Build) (installer : Option Installer) (asset : PlatformAsset) :
    Bool :=
  match installer with
  | none => false
  | some installer => installer.length == asset.size && installer.sha256 == asset.sha256 &&
    build.certificate.isSome && installer.signer == build.certificate

def floor (version : Option String) : WithBot VersionNumber := version.bind parseVersion

/-- `persisted.highest_verified_version` after a manifest that is not older. -/
def raiseFloor (highest : Option String) (version : String) : Option String :=
  match highest with
  | none => some version
  | some current => match compareVersions version current with
    | none => some version
    | some .gt => some version
    | some _ => highest

def isOlder (highest : Option String) (version : String) : Bool :=
  match highest with
  | none => false
  | some current => compareVersions version current == some .lt

theorem floor_of_parse {version : String} {number : VersionNumber}
    (h : parseVersion version = some number) : floor (some version) = number := h

theorem floor_of_not_parse {version : String} (h : parseVersion version = none) :
    floor (some version) = ⊥ := h

theorem compareVersions_of_parse {left right : String} {l r : VersionNumber}
    (hl : parseVersion left = some l) (hr : parseVersion right = some r) :
    compareVersions left right = some (cmp l r) := by
  rw [compareVersions, hl, hr]
  rfl

theorem compareVersions_of_not_parse {left right : String} (hr : parseVersion right = none) :
    compareVersions left right = none := by
  rw [compareVersions, hr]
  cases parseVersion left <;> rfl

/-- What was verified before bounds a manifest that is not older, and the raised bound is
its version. -/
theorem floor_raiseFloor {highest : Option String} {version : String}
    (hversion : (parseVersion version).isSome) (h : isOlder highest version = false) :
    floor highest ≤ floor (some version) ∧
      floor (raiseFloor highest version) = floor (some version) := by
  obtain ⟨number, hnumber⟩ := Option.isSome_iff_exists.mp hversion
  cases highest with
  | none => exact ⟨bot_le, rfl⟩
  | some current =>
    cases hcurrent : parseVersion current with
    | none =>
      have hcompare : compareVersions version current = none :=
        compareVersions_of_not_parse hcurrent
      have hfloor : floor (some current) = ⊥ := floor_of_not_parse hcurrent
      exact ⟨hfloor.trans_le bot_le, by simp [raiseFloor, hcompare]⟩
    | some bound =>
      have hcompare : compareVersions version current = some (cmp number bound) :=
        compareVersions_of_parse hnumber hcurrent
      have hleft : floor (some version) = number := floor_of_parse hnumber
      have hright : floor (some current) = bound := floor_of_parse hcurrent
      have hnotolder : compareVersions version current ≠ some .lt := beq_eq_false_iff_ne.mp h
      rw [hcompare] at hnotolder
      have hle : bound ≤ number := not_lt.mp fun hlt =>
        hnotolder (congrArg some ((cmp_eq_lt_iff number bound).mpr hlt))
      have hfloor : floor (some current) ≤ floor (some version) := by
        rw [hleft, hright]
        exact WithBot.coe_le_coe.mpr hle
      refine ⟨hfloor, ?_⟩
      cases horder : cmp number bound with
      | lt => exact absurd ((cmp_eq_lt_iff number bound).mp horder) (not_lt.mpr hle)
      | gt =>
        rw [horder] at hcompare
        simp only [raiseFloor, hcompare]
      | eq =>
        rw [horder] at hcompare
        simp only [raiseFloor, hcompare]
        rw [hleft, hright, (cmp_eq_eq_iff number bound).mp horder]

end UpdateWorker

end FlowType

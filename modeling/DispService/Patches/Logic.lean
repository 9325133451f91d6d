import Mathlib.Logic.Function.Basic
import Mathlib.Data.List.Basic

/-! The patches of the VM configurations when the dispatcher starts with another version. The
settings say which patch keys a VM has had; the patches of single fields leave a stamp in the
configuration itself. -/
namespace DispService.Patches

/-- The keys of `g_PathKeys`. -/
inductive PKeyId where
  | bug7938_ShouldFixServerUuidInVmConfigs
  | bug438530_MultiDisplay
  | bug477998_app_version
  | PWE_3918_changeAutoStartLoadOption
  | PSBM_13394_vmNetworkAdapterHostMac
  deriving DecidableEq

inductive PatcherKind where
  | pkInitService | pkRegisterVm | pkSwitchToSnapshot
  deriving DecidableEq

structure XmlPatch where
  m_qsPath : String
  m_qsStamp : String := "1"
  deriving DecidableEq

def CPatchVmMultiDisplay : XmlPatch := ⟨"Settings.Tools.Coherence.MultiDisplay", "1"⟩
def CPatchAutoStartOption : XmlPatch := ⟨"Settings.Startup.AutoStart", "0"⟩
def CPatchCornerActionsReset : XmlPatch := ⟨"Settings.Runtime.FullScreen.CornerAction", "2"⟩

def getXmlPatches : List XmlPatch :=
  [CPatchVmMultiDisplay,
    CPatchAutoStartOption,
    ⟨"Settings.VirtualPrintersInfo.UseHostPrinters", "1"⟩,
    ⟨"Settings.Tools.Coherence.ShowTaskBar", "1"⟩,
    ⟨"Settings.SharedCamera.Enabled", "1"⟩,
    CPatchCornerActionsReset,
    ⟨"Settings.Runtime.OptimizePowerConsumptionMode", "1"⟩,
    ⟨"Settings.Tools.Coherence.GroupAllWindows", "1"⟩,
    ⟨"Settings.Tools.Coherence.RelocateTaskBar", "1"⟩,
    ⟨"Settings.Tools.Coherence.ExcludeDock", "1"⟩,
    ⟨"Settings.Tools.Coherence.DoNotMinimizeToDock", "1"⟩,
    ⟨"Settings.Tools.Coherence.BringToFront", "1"⟩,
    ⟨"Settings.Tools.Coherence.AlwaysOnTop", "1"⟩,
    ⟨"Settings.Tools.ClipboardSync.Enabled", "1"⟩,
    ⟨"Settings.Tools.DragAndDrop.Enabled", "1"⟩,
    ⟨"Settings.Tools.Gestures.Enabled", "1"⟩,
    ⟨"Hardware.Cpu.EnableVTxSupport", "1"⟩,
    ⟨"Settings.Tools.TimeSync.SyncInterval", "1"⟩,
    ⟨"Settings.Tools.SharedFolders.HostSharing.MapSharedFoldersOnLetters", "1"⟩,
    ⟨"Settings.Tools.Modality.Opacity", "1"⟩,
    ⟨"Settings.Tools.Modality.StayOnTop", "1"⟩,
    ⟨"Settings.Runtime.StickyMouse", "1"⟩,
    ⟨"Settings.UsbController.UhcEnabled", "1"⟩,
    ⟨"Hardware.Chipset.Version", "1"⟩,
    ⟨"Hardware.Video.VideoMemorySize", "1"⟩,
    ⟨"Settings.General.Profile.Custom", "1"⟩]

/-- What can be patched in a configuration. -/
inductive Patch where
  | serverUuid
  | hostMacs
  | appVersion
  | xml (p : XmlPatch)
  deriving DecidableEq

/-- What a key stands for. Nothing uses the key of the load option any more, and the one of the
displays lets the patch of their field take effect. -/
def PKeyId.content : PKeyId → Option Patch
  | .bug7938_ShouldFixServerUuidInVmConfigs => some .serverUuid
  | .bug438530_MultiDisplay => some (.xml CPatchVmMultiDisplay)
  | .bug477998_app_version => some .appVersion
  | .PWE_3918_changeAutoStartLoadOption => none
  | .PSBM_13394_vmNetworkAdapterHostMac => some .hostMacs

variable {γ : Type}

/-- The changes that the patches make on this host at this start. -/
structure Effects (γ : Type) where
  setServerUuid : γ → γ
  patchVmHostMacs : γ → γ
  patchAppVersion : γ → γ
  /-- The flag tells the patch of the displays that it may take effect. -/
  patch : XmlPatch → Bool → γ → γ

structure VmConfiguration (γ : Type) where
  content : γ
  patchStamp : String → String
  /-- History: the patches that it has had. -/
  patched : Patch → Bool

namespace VmConfiguration

def apply (q : Patch) (f : γ → γ) (x : VmConfiguration γ) : VmConfiguration γ :=
  { x with content := f x.content, patched := Function.update x.patched q true }

end VmConfiguration

namespace XmlPatch

def isFieldPatched (p : XmlPatch) (pVmConfig : VmConfiguration γ) : Bool :=
  pVmConfig.patchStamp p.m_qsPath = p.m_qsStamp

def markAsPatched (p : XmlPatch) (pVmConfig : VmConfiguration γ) : VmConfiguration γ :=
  { pVmConfig with patchStamp := Function.update pVmConfig.patchStamp p.m_qsPath p.m_qsStamp }

def needApplyPatch (p : XmlPatch) (patcher : PatcherKind) : Bool :=
  if p = CPatchVmMultiDisplay ∨ p = CPatchAutoStartOption then
    patcher = .pkInitService || patcher = .pkRegisterVm
  else true

variable (e : Effects γ) (patcher : PatcherKind) (lstPatches : PKeyId → Bool)

/-- The displays are patched at a start only with their key. -/
def patch (p : XmlPatch) (pVmConfig : VmConfiguration γ) : VmConfiguration γ :=
  let allowed := lstPatches .bug438530_MultiDisplay || patcher ≠ .pkInitService
  if p = CPatchVmMultiDisplay ∧ allowed = false then
    { pVmConfig with content := e.patch p false pVmConfig.content }
  else pVmConfig.apply (.xml p) (e.patch p allowed)

def tryToPatch (p : XmlPatch) (pVmConfig : VmConfiguration γ) : Bool × VmConfiguration γ :=
  if !p.needApplyPatch patcher || p.isFieldPatched pVmConfig then (false, pVmConfig)
  else (true, p.markAsPatched (p.patch e patcher lstPatches pVmConfig))

end XmlPatch

section

variable (e : Effects γ) (patcher : PatcherKind) (lstPatches : PKeyId → Bool)

def applyEach (xmlPatches : List XmlPatch) (bSaveConfig : Bool) (pVmConfig : VmConfiguration γ) :
    Bool × VmConfiguration γ :=
  xmlPatches.foldl (fun r p =>
    let t := p.tryToPatch e patcher lstPatches r.2
    (r.1 || t.1, t.2)) (bSaveConfig, pVmConfig)

def applyXmlPatches (pVmConfig : VmConfiguration γ) : Bool × VmConfiguration γ :=
  applyEach e patcher lstPatches getXmlPatches false pVmConfig

end

/-- The texts of uuids have one length. -/
structure Uuid where
  text : String
  length_eq : text.length = 38
  deriving DecidableEq

structure VmIdent where
  vmDirUuid : Uuid
  vmUuid : Uuid
  deriving DecidableEq

def MAKE_VM_KEY (vm : VmIdent) : String :=
  vm.vmDirUuid.text ++ "-" ++ vm.vmUuid.text

/-- The settings of the group, and the configurations as they are stored. A key without a VM was
written by an older dispatcher that had patched every VM. -/
structure State (γ : Type) where
  isSet : PKeyId → Option String → Bool
  configs : VmIdent → VmConfiguration γ

def pending (s : State γ) (vm : VmIdent) (prKeyId : PKeyId) : Bool :=
  !s.isSet prKeyId (some (MAKE_VM_KEY vm)) && !s.isSet prKeyId none

/-- Every key is marked for the VM, whether it was pending or not. -/
def collectVmPatches (s : State γ) (vm : VmIdent) : (PKeyId → Bool) × State γ :=
  (pending s vm,
    { s with isSet := fun prKeyId qsVmKey =>
        qsVmKey = some (MAKE_VM_KEY vm) || s.isSet prKeyId qsVmKey })

/-- A VM at one start, and whether its configuration is loaded and saved then. -/
structure Visit (γ : Type) where
  vm : VmIdent
  loads : Bool
  saves : Bool
  effects : Effects γ

/-- The patches in their order; the result tells whether there is something to save. -/
def patchLoaded (e : Effects γ) (lstPatches : PKeyId → Bool) (pVmConfig : VmConfiguration γ) :
    Bool × VmConfiguration γ :=
  let x := if lstPatches .bug7938_ShouldFixServerUuidInVmConfigs
    then pVmConfig.apply .serverUuid e.setServerUuid else pVmConfig
  let x := if lstPatches .PSBM_13394_vmNetworkAdapterHostMac
    then x.apply .hostMacs e.patchVmHostMacs else x
  let r := applyXmlPatches e .pkInitService lstPatches x
  let x := if lstPatches .bug477998_app_version
    then r.2.apply .appVersion e.patchAppVersion else r.2
  (lstPatches .bug7938_ShouldFixServerUuidInVmConfigs ||
    lstPatches .PSBM_13394_vmNetworkAdapterHostMac || r.1 || lstPatches .bug477998_app_version, x)

/-- The result of the save is not looked at. -/
def patchVmConfig (v : Visit γ) (s : State γ) : Bool × State γ :=
  if !v.loads then (false, s)
  else
    let collected := collectVmPatches s v.vm
    let r := patchLoaded v.effects collected.1 (s.configs v.vm)
    let s := collected.2
    if !r.1 then (false, s)
    else (true,
      if v.saves then { s with configs := Function.update s.configs v.vm r.2 } else s)

def visit (s : State γ) (v : Visit γ) : State γ := (patchVmConfig v s).2

structure Start (γ : Type) where
  isDispVersionChanged : Bool
  visits : List (Visit γ)

/-- Only a start with another version patches. -/
def patchVmConfigs (starts : List (Start γ)) : List (Visit γ) :=
  starts.flatMap fun start => if start.isDispVersionChanged then start.visits else []

end DispService.Patches

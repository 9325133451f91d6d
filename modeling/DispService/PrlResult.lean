/-! The result codes the modelled functions return. -/
namespace DispService

inductive PrlResult where
  | success
  | invalidArg
  | failure
  | vmIsNotLocked
  | notLockOwnerSessionTriesToUnlock
  | vmLockedForClone
  | vmLockedForDelete
  | vmLockedForUnregister
  | vmLockedForEditCommit
  | vmLockedForExecute
  | vmLockedForExecuteEx
  | vmLockedForMigrate
  | vmLockedForEditCommitWithRename
  | vmLockedForUpdateSecurity
  | vmMustBeStoppedForChangeDevices
  | vmLockedForCreateSnapshot
  | vmLockedForSwitchToSnapshot
  | vmLockedForDeleteToSnapshot
  | vmLockedForBackup
  | vmLockedCtlForBackup
  | vmLockedForRestoreFromBackup
  | vmIsExclusivelyLocked
  | vmLockedForDiskResize
  | vmLockedForDiskCompact
  | vmLockedForDiskConvert
  | vmLockedForChangeFirewall
  | vmLockedForCopyImage
  | vmLockedForMove
  | vmLockedForInternalReason
  | vmUuidNotFound
  | vmSnapshotsConfigNotFound
  | vmSnapshotNotFound
  | invalidParam
  | vmDirConfigAlreadyExists
  | vmDirectoryNotExist
  | entryAlreadyExists
  | entryDoesNotExist
  | saveVmCatalog
  | vmAlreadyRegistered
  | vmAlreadyRegisteredVmUuid
  | vmAlreadyRegisteredVmName
  | vmAlreadyRegisteredVmPath
  | vmAlreadyRegisteredUniqueParams
  | doubleInit
  | fileNotFound
  | backupRestoreInternalError
  | uninitialized
  | unsupportedDeviceType
  | makeDirectory
  | cantRemoveEntry
  | operationFailed
  | unexpected
  | operationWasCanceled
  | unimplemented
  | backupRestoreDirectoryAlreadyExist
  | backupRestoreCannotCreateDirectory
  | vmCreateHddImgInvalidCreate
  | diskMountFailed
  | vmApplyFilterConfigFailed
  | backupRestoreExistingSetPrivate
  | badParameters
  | backupRestoreVmRunning
  | vmRequestNotSupported
  | backupBackupNotFound
  | backupBackupUuidNotFound
  | backupUnsupportedKeepChain
  | backupInternalError
  | backupCannotRemoveDirectory
  | backupLockedForWriting
  | backupLockedForReading
  | cantRenameEntry
  | invalidHandle
  | vmConfigIsAlreadyValid
  | noVmDirConfigFound
  | parseVmConfig
  | cantChangeFilePermissions
  | cantChangeOwnerOfFile
  | ipprivateNetworkInvalidIp
  | ipprivateNetworkDoesNotExist
  | duplicateIpprivateNetworkName
  | configBeginEditNotFoundObjectUuid
  | configBeginEditNotFoundUserUuid
  | attachBackupUrlChangeProhibited
  | attachBackupAlreadyAttached
deriving DecidableEq, Repr

/-- `PRL_FAILED`: every code except `PRL_ERR_SUCCESS` is an error. -/
def PrlResult.failed (code : PrlResult) : Bool :=
  code != .success

end DispService

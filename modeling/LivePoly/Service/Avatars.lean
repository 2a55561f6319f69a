import LivePoly.Service.Database
import LivePoly.Lib.Keyed

/-!
# Service.Avatars

The avatar of one user: `UsersMediaService.createAvatarUploadUrl`, the uploads of the client, and
the jobs of `processVerifyAvatarUpload`, each call and each job as one step. The user has not been
deleted.
-/

namespace LivePoly
namespace Service

/-! ## Rows and objects -/

structure UploadId where
  uuid : Nat
  deriving DecidableEq

/-- The key `avatars/⟨user⟩/⟨uuid⟩.⟨extension⟩` of an object of the user. -/
structure AvatarKey where
  uuid : Nat
  extension : String
  deriving DecidableEq

inductive AvatarUploadStatus where
  | pending | confirmed | cleanedUp | expired
  deriving DecidableEq

structure AvatarUpload where
  id : UploadId
  objectKey : AvatarKey
  previousAvatarObjectKey : Option AvatarKey
  contentType : String
  contentLength : Nat
  status : AvatarUploadStatus
  deriving DecidableEq

/-- An object in storage, as its metadata and its bytes. -/
structure StoredObject where
  contentType : Option String
  bytes : List UInt8
  deriving DecidableEq

namespace USER_AVATAR

def maxBytes : Nat := 10 * 1024 * 1024

def allowedContentTypes : List String := ["image/jpeg", "image/png", "image/webp"]

end USER_AVATAR

structure Avatars where
  avatarObjectKey : Option AvatarKey
  uploads : List AvatarUpload
  objects : AvatarKey → Option StoredObject

inductive AvatarInput where
  | createAvatarUploadUrl (id : UploadId) (uuid : Nat) (contentType : String) (contentLength : Nat)
  /-- The client puts an object where it was given an address. -/
  | upload (objectKey : AvatarKey) (object : StoredObject)
  | verifyAvatarUpload (uploadId : UploadId) (objectKey : AvatarKey)
  deriving DecidableEq

inductive AvatarOutput where
  | jobCompleted
  | jobSkipped (reason : String)
  deriving DecidableEq

/-! ## The checks of a job -/

namespace UsersProcessor

def isAllowedAvatarContentType (contentType : Option String) : Bool :=
  contentType.any (· ∈ USER_AVATAR.allowedContentTypes)

def contentTypeMatchesObjectKey (objectKey : AvatarKey) (contentType : Option String) : Bool :=
  if contentType = some "image/jpeg" then objectKey.extension = "jpg"
  else if contentType = some "image/png" then objectKey.extension = "png"
  else if contentType = some "image/webp" then objectKey.extension = "webp"
  else false

def fileSignatureMatchesContentType (bytes : List UInt8) (contentType : Option String) : Bool :=
  if contentType = some "image/jpeg" then
    3 ≤ bytes.length && bytes.take 3 = [0xff, 0xd8, 0xff]
  else if contentType = some "image/png" then
    8 ≤ bytes.length && bytes.take 8 = [0x89, 0x50, 0x4e, 0x47, 0x0d, 0x0a, 0x1a, 0x0a]
  else if contentType = some "image/webp" then
    12 ≤ bytes.length && bytes.take 4 = [0x52, 0x49, 0x46, 0x46] &&
      (bytes.drop 8).take 4 = [0x57, 0x45, 0x42, 0x50]
  else false

/-- The metadata of an object are those the upload was announced with. -/
def validMetadata (upload : AvatarUpload) (object : StoredObject) : Bool :=
  object.bytes.length = upload.contentLength && object.contentType = some upload.contentType &&
    isAllowedAvatarContentType object.contentType &&
    contentTypeMatchesObjectKey upload.objectKey object.contentType

/-- The first bytes of an object are those of its type. -/
def validSignature (object : StoredObject) : Bool :=
  fileSignatureMatchesContentType (object.bytes.take 16) object.contentType

end UsersProcessor

/-! ## Calls and jobs -/

namespace UsersMediaRepository

/-- The updates of an upload that is pending. -/
def setStatus (uploads : List AvatarUpload) (uploadId : UploadId) (status : AvatarUploadStatus) :
    List AvatarUpload :=
  Keyed.modify AvatarUpload.id uploads uploadId fun upload =>
    if upload.status = .pending then { upload with status } else upload

def findAvatarUploadById (m : Avatars) (uploadId : UploadId) : Option AvatarUpload :=
  Keyed.find AvatarUpload.id m.uploads uploadId

def restoreAvatarObjectKey (m : Avatars) (currentObjectKey : AvatarKey)
    (previousObjectKey : Option AvatarKey) : Avatars :=
  if m.avatarObjectKey = some currentObjectKey then { m with avatarObjectKey := previousObjectKey }
  else m

def confirmAvatarUpload (m : Avatars) (uploadId : UploadId) : Avatars :=
  { m with uploads := setStatus m.uploads uploadId .confirmed }

def markAvatarUploadCleanedUp (m : Avatars) (uploadId : UploadId) : Avatars :=
  { m with uploads := setStatus m.uploads uploadId .cleanedUp }

def markAvatarUploadExpired (m : Avatars) (uploadId : UploadId) : Avatars :=
  { m with uploads := setStatus m.uploads uploadId .expired }

end UsersMediaRepository

/-- `StorageService.deleteObject` -/
def Avatars.deleteObject (m : Avatars) (objectKey : AvatarKey) : Avatars :=
  { m with objects := Function.update m.objects objectKey none }

namespace UsersMediaService

def avatarExtensionForContentType (contentType : String) : String :=
  if contentType = "image/jpeg" then "jpg"
  else if contentType = "image/png" then "png"
  else "webp"

def createAvatarUploadUrl (m : Avatars) (id : UploadId) (uuid : Nat) (contentType : String)
    (contentLength : Nat) : Avatars :=
  let objectKey : AvatarKey := ⟨uuid, avatarExtensionForContentType contentType⟩
  { m with
    avatarObjectKey := some objectKey
    uploads := m.uploads ++
      [⟨id, objectKey, m.avatarObjectKey, contentType, contentLength, .pending⟩] }

end UsersMediaService

open UsersMediaRepository UsersProcessor in
/-- `deleteInvalidAvatarUpload` -/
def deleteInvalidAvatarUpload (m : Avatars) (upload : AvatarUpload) : Avatars :=
  let deleted := m.deleteObject upload.objectKey
  let restored := restoreAvatarObjectKey deleted upload.objectKey upload.previousAvatarObjectKey
  markAvatarUploadCleanedUp restored upload.id

open UsersMediaRepository UsersProcessor in
def processVerifyAvatarUpload (m : Avatars) (uploadId : UploadId) (objectKey : AvatarKey) :
    Avatars × AvatarOutput :=
  match findAvatarUploadById m uploadId with
  | none => (m, .jobSkipped "upload_not_found")
  | some upload =>
    match upload.status with
    | .confirmed => (m, .jobSkipped "upload_already_confirmed")
    | .cleanedUp | .expired => (m, .jobSkipped "upload_already_processed")
    | .pending =>
      if upload.objectKey ≠ objectKey then (m, .jobSkipped "job_upload_mismatch")
      else
        match m.objects upload.objectKey with
        | none =>
          let restored :=
            restoreAvatarObjectKey m upload.objectKey upload.previousAvatarObjectKey
          (markAvatarUploadExpired restored upload.id, .jobSkipped "object_not_found")
        | some object =>
          if ¬ validMetadata upload object then
            (deleteInvalidAvatarUpload m upload, .jobSkipped "invalid_metadata")
          else if ¬ validSignature object then
            (deleteInvalidAvatarUpload m upload, .jobSkipped "invalid_signature")
          else
            let confirmed := confirmAvatarUpload m upload.id
            match upload.previousAvatarObjectKey with
            | none => (confirmed, .jobCompleted)
            | some previous =>
              (if previous ≠ upload.objectKey then confirmed.deleteObject previous else confirmed,
                .jobCompleted)

def avatarStep (m : Avatars) : AvatarInput → Option (Avatars × List AvatarOutput)
  | .createAvatarUploadUrl id uuid contentType contentLength =>
    let objectKey : AvatarKey :=
      ⟨uuid, UsersMediaService.avatarExtensionForContentType contentType⟩
    if contentType ∈ USER_AVATAR.allowedContentTypes ∧ 1 ≤ contentLength ∧
        contentLength ≤ USER_AVATAR.maxBytes ∧ id ∉ m.uploads.map AvatarUpload.id ∧
        objectKey ∉ m.uploads.map AvatarUpload.objectKey then
      some (UsersMediaService.createAvatarUploadUrl m id uuid contentType contentLength, [])
    else none
  | .upload objectKey object =>
    if objectKey ∈ m.uploads.map AvatarUpload.objectKey then
      some ({ m with objects := Function.update m.objects objectKey (some object) }, [])
    else none
  | .verifyAvatarUpload uploadId objectKey =>
    let (m', output) := processVerifyAvatarUpload m uploadId objectKey
    some (m', [output])

/-- The step relation of a user's avatar. -/
def AvatarSteps (m : Avatars) (input : AvatarInput) (output : List AvatarOutput) (m' : Avatars) :
    Prop :=
  avatarStep m input = some (m', output)

end Service
end LivePoly

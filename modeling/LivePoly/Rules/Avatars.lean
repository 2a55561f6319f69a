import LivePoly.Service.Avatars
import LivePoly.Lib.Trace

/-!
# Rules.Avatars

Where a user's avatar may point to. Each upload remembers the key it replaced, and a job that rejects
the upload goes back to that key, whatever has become of it. Where it is not the key of an upload
that was rejected before, the uploads that are not rejected are a chain from the avatar down, of
which a job takes off the first or deletes what is below a confirmed one; so a confirmed avatar is
in storage.
-/

namespace LivePoly
namespace Rules

open Service Trace

/-! ## What is claimed of the avatar -/

/-- A user that is registered and has no avatar. -/
def withoutAvatar : Avatars := ⟨none, [], fun _ => none⟩

/-- The upload is in storage as it was announced. -/
def isAcceptable (m : Avatars) (upload : AvatarUpload) : Bool :=
  (m.objects upload.objectKey).any fun object =>
    UsersProcessor.validMetadata upload object && UsersProcessor.validSignature object

/-- The upload has not been rejected. -/
def NotRejected (upload : AvatarUpload) : Prop :=
  upload.status = .pending ∨ upload.status = .confirmed

instance (upload : AvatarUpload) : Decidable (NotRejected upload) :=
  inferInstanceAs (Decidable (_ ∨ _))

/-- A job that rejects the upload of the current avatar goes back to no avatar or to an upload that
was not rejected before. -/
def RestoresValid (m : Avatars) : AvatarInput → Prop
  | .verifyAvatarUpload uploadId objectKey => ∀ upload,
    UsersMediaRepository.findAvatarUploadById m uploadId = some upload →
      upload.status = .pending → upload.objectKey = objectKey → isAcceptable m upload = false →
      m.avatarObjectKey = some upload.objectKey → ∀ previous,
        upload.previousAvatarObjectKey = some previous →
          ∃ other ∈ m.uploads, other.objectKey = previous ∧ NotRejected other
  | _ => True

/-- The avatar is none, or the key of an upload that was confirmed and is in storage. -/
def AvatarSafe (m : Avatars) : Prop :=
  m.avatarObjectKey = none ∨ ∃ upload ∈ m.uploads, m.avatarObjectKey = some upload.objectKey ∧
    upload.status = .confirmed ∧ (m.objects upload.objectKey).isSome

/-! ## What a step can do -/

/-- The upload as a job leaves it. -/
def processed (upload : AvatarUpload) (status : AvatarUploadStatus) : AvatarUpload :=
  { upload with status }

/-- What a step does with the uploads. -/
inductive AvatarMove (m : Avatars) : AvatarInput → Avatars → Prop
  | stays {input} : AvatarMove m input m
  | creates {id uuid contentType contentLength} (upload : AvatarUpload)
      (hid : upload.id ∉ m.uploads.map AvatarUpload.id)
      (hkey : upload.objectKey ∉ m.uploads.map AvatarUpload.objectKey)
      (hprevious : upload.previousAvatarObjectKey = m.avatarObjectKey)
      (hstatus : upload.status = .pending) :
      AvatarMove m (.createAvatarUploadUrl id uuid contentType contentLength)
        { m with avatarObjectKey := some upload.objectKey, uploads := m.uploads ++ [upload] }
  | uploads {objectKey object} :
      AvatarMove m (.upload objectKey object)
        { m with objects := Function.update m.objects objectKey (some object) }
  | rejects {upload status objects} (hmem : upload ∈ m.uploads)
      (hpending : upload.status = .pending) (hnot : isAcceptable m upload = false)
      (hstatus : ¬ NotRejected (processed upload status))
      (hobjects : ∀ key, key ≠ upload.objectKey → objects key = m.objects key) :
      AvatarMove m (.verifyAvatarUpload upload.id upload.objectKey)
        { avatarObjectKey := if m.avatarObjectKey = some upload.objectKey then
            upload.previousAvatarObjectKey else m.avatarObjectKey
          uploads := UsersMediaRepository.setStatus m.uploads upload.id status
          objects }
  | confirms {upload objects} (hmem : upload ∈ m.uploads) (hpending : upload.status = .pending)
      (hstored : (objects upload.objectKey).isSome)
      (hobjects : ∀ key, upload.previousAvatarObjectKey ≠ some key → objects key = m.objects key) :
      AvatarMove m (.verifyAvatarUpload upload.id upload.objectKey)
        { m with uploads := UsersMediaRepository.setStatus m.uploads upload.id .confirmed, objects }

section Steps

variable {m m' : Avatars} {input : AvatarInput} {output : List AvatarOutput}

theorem deleteInvalidAvatarUpload_move {upload : AvatarUpload} (hmem : upload ∈ m.uploads)
    (hpending : upload.status = .pending) (hnot : isAcceptable m upload = false) :
    AvatarMove m (.verifyAvatarUpload upload.id upload.objectKey)
      (deleteInvalidAvatarUpload m upload) := by
  have heq : deleteInvalidAvatarUpload m upload =
      { avatarObjectKey := if m.avatarObjectKey = some upload.objectKey then
          upload.previousAvatarObjectKey else m.avatarObjectKey
        uploads := UsersMediaRepository.setStatus m.uploads upload.id .cleanedUp
        objects := Function.update m.objects upload.objectKey none } := by
    unfold deleteInvalidAvatarUpload UsersMediaRepository.restoreAvatarObjectKey
    by_cases hcurrent : m.avatarObjectKey = some upload.objectKey
    · simp [Avatars.deleteObject, UsersMediaRepository.markAvatarUploadCleanedUp, hcurrent]
    · simp [Avatars.deleteObject, UsersMediaRepository.markAvatarUploadCleanedUp, hcurrent]
  rw [heq]
  refine .rejects hmem hpending hnot ?_ ?_
  · rintro (h | h) <;> cases h
  · intro key hkey
    exact Function.update_of_ne hkey _ _

theorem processVerifyAvatarUpload_move (m : Avatars) (uploadId : UploadId) (objectKey : AvatarKey) :
    AvatarMove m (.verifyAvatarUpload uploadId objectKey)
      (processVerifyAvatarUpload m uploadId objectKey).1 := by
  unfold processVerifyAvatarUpload
  cases hfind : UsersMediaRepository.findAvatarUploadById m uploadId with
  | none => exact .stays
  | some upload =>
    have hmem : upload ∈ m.uploads := Keyed.find_mem _ hfind
    have hid : upload.id = uploadId := Keyed.find_key _ hfind
    subst hid
    simp only
    cases hstatus : upload.status with
    | confirmed => exact .stays
    | cleanedUp => exact .stays
    | expired => exact .stays
    | pending =>
      simp only
      split
      · exact .stays
      · rename_i hkey
        rw [not_not] at hkey
        subst hkey
        cases hobject : m.objects upload.objectKey with
        | none =>
          have hnot : isAcceptable m upload = false := by
            unfold isAcceptable
            rw [hobject]
            rfl
          have heq : UsersMediaRepository.markAvatarUploadExpired
              (UsersMediaRepository.restoreAvatarObjectKey m upload.objectKey
                upload.previousAvatarObjectKey) upload.id =
              { avatarObjectKey := if m.avatarObjectKey = some upload.objectKey then
                  upload.previousAvatarObjectKey else m.avatarObjectKey
                uploads := UsersMediaRepository.setStatus m.uploads upload.id .expired
                objects := m.objects } := by
            unfold UsersMediaRepository.restoreAvatarObjectKey
            by_cases hcurrent : m.avatarObjectKey = some upload.objectKey
            · simp [UsersMediaRepository.markAvatarUploadExpired, hcurrent]
            · simp [UsersMediaRepository.markAvatarUploadExpired, hcurrent]
          simp only [heq]
          refine .rejects hmem hstatus hnot ?_ fun _ _ => rfl
          rintro (h | h) <;> cases h
        | some object =>
          simp only
          split
          · rename_i hmetadata
            refine deleteInvalidAvatarUpload_move hmem hstatus ?_
            unfold isAcceptable
            rw [hobject, Option.any_some, Bool.eq_false_iff.mpr hmetadata]
            rfl
          · split
            · rename_i hsignature
              refine deleteInvalidAvatarUpload_move hmem hstatus ?_
              unfold isAcceptable
              rw [hobject, Option.any_some, Bool.eq_false_iff.mpr hsignature, Bool.and_false]
            · have hsome : (m.objects upload.objectKey).isSome := by
                rw [hobject]
                rfl
              cases hprevious : upload.previousAvatarObjectKey with
              | none => exact .confirms hmem hstatus hsome fun _ _ => rfl
              | some previous =>
                simp only
                split
                · rename_i hne
                  refine .confirms hmem hstatus ?_ ?_
                  · rw [Function.update_of_ne hne.symm]
                    exact hsome
                  · intro key hkey
                    refine Function.update_of_ne ?_ _ _
                    rintro rfl
                    exact hkey hprevious
                · exact .confirms hmem hstatus hsome fun _ _ => rfl

theorem avatarStep_move (h : AvatarSteps m input output m') : AvatarMove m input m' := by
  unfold AvatarSteps avatarStep at h
  cases input with
  | createAvatarUploadUrl id uuid contentType contentLength =>
    simp only at h
    split at h
    · rename_i hvalid
      obtain ⟨_, _, _, hid, hkey⟩ := hvalid
      cases h
      exact .creates ⟨id, ⟨uuid, _⟩, m.avatarObjectKey, contentType, contentLength, .pending⟩ hid
        hkey rfl rfl
    · cases h
  | upload objectKey object =>
    simp only at h
    split at h
    · cases h
      exact .uploads
    · cases h
  | verifyAvatarUpload uploadId objectKey =>
    have hmove := processVerifyAvatarUpload_move m uploadId objectKey
    cases h
    exact hmove

/-! ## The chain of uploads -/

/-- What is known of the uploads in every state: of those that were not rejected no two replaced the
same key, none replaced the current one, and a confirmed one is stored unless one that replaced it
is confirmed too. -/
structure AvatarInv (m : Avatars) : Prop where
  ids : (m.uploads.map AvatarUpload.id).Nodup
  previous : ∀ upload ∈ m.uploads, ∀ key, upload.previousAvatarObjectKey = some key →
    key ∈ m.uploads.map AvatarUpload.objectKey
  keys : (m.uploads.map AvatarUpload.objectKey).Nodup
  current : ∀ key, m.avatarObjectKey = some key →
    ∃ upload ∈ m.uploads, upload.objectKey = key ∧ NotRejected upload
  top : ∀ upload ∈ m.uploads, NotRejected upload → ∀ key,
    upload.previousAvatarObjectKey = some key → m.avatarObjectKey ≠ some key
  single : ∀ upload ∈ m.uploads, ∀ other ∈ m.uploads, NotRejected upload → NotRejected other →
    ∀ key, upload.previousAvatarObjectKey = some key → other.previousAvatarObjectKey = some key →
      upload = other
  stored : ∀ upload ∈ m.uploads, upload.status = .confirmed →
    (∀ other ∈ m.uploads, other.previousAvatarObjectKey = some upload.objectKey →
      other.status ≠ .confirmed) → (m.objects upload.objectKey).isSome

theorem withoutAvatar_inv : AvatarInv withoutAvatar where
  ids := List.nodup_nil
  previous := List.forall_mem_nil _
  keys := List.nodup_nil
  current := fun _ hkey => by cases hkey
  top := List.forall_mem_nil _
  single := List.forall_mem_nil _
  stored := List.forall_mem_nil _

theorem mem_setStatus {upload : AvatarUpload} (other : AvatarUpload) (status : AvatarUploadStatus)
    (hids : (m.uploads.map AvatarUpload.id).Nodup) (hmem : upload ∈ m.uploads)
    (hpending : upload.status = .pending) :
    other ∈ UsersMediaRepository.setStatus m.uploads upload.id status ↔
      other = processed upload status ∨ other ∈ m.uploads ∧ other ≠ upload := by
  have hsame : ∀ before ∈ m.uploads, before.id = upload.id → before = upload := by
    intro before hbefore hid
    exact List.inj_on_of_nodup_map hids hbefore hmem hid
  unfold UsersMediaRepository.setStatus Keyed.modify
  rw [List.mem_map]
  constructor
  · rintro ⟨before, hbefore, rfl⟩
    by_cases hid : before.id = upload.id
    · left
      rw [if_pos hid, hsame before hbefore hid]
      exact if_pos hpending
    · right
      rw [if_neg hid]
      refine ⟨hbefore, ?_⟩
      rintro rfl
      exact hid rfl
  · rintro (rfl | ⟨hother, hne⟩)
    · refine ⟨upload, hmem, ?_⟩
      rw [if_pos rfl]
      exact if_pos hpending
    · refine ⟨other, hother, if_neg fun hid => hne (hsame other hother hid)⟩

theorem setStatus_map {β : Type} {g : AvatarUpload → β}
    (hg : ∀ upload status, g (processed upload status) = g upload) (uploads : List AvatarUpload)
    (id : UploadId) (status : AvatarUploadStatus) :
    (UsersMediaRepository.setStatus uploads id status).map g = uploads.map g := by
  refine Keyed.map_modify AvatarUpload.id ?_ _ _
  intro upload
  split
  · exact hg upload status
  · rfl

theorem AvatarInv.creates {upload : AvatarUpload} (h : AvatarInv m)
    (hid : upload.id ∉ m.uploads.map AvatarUpload.id)
    (hkey : upload.objectKey ∉ m.uploads.map AvatarUpload.objectKey)
    (hprevious : upload.previousAvatarObjectKey = m.avatarObjectKey)
    (hstatus : upload.status = .pending) :
    AvatarInv { m with
      avatarObjectKey := some upload.objectKey, uploads := m.uploads ++ [upload] } := by
  have hfresh : ∀ other ∈ m.uploads, other.previousAvatarObjectKey ≠ some upload.objectKey :=
    fun other hother heq => hkey (h.previous other hother _ heq)
  have hown : upload.previousAvatarObjectKey ≠ some upload.objectKey := by
    intro heq
    obtain ⟨other, hother, hsame, _⟩ := h.current _ (hprevious.symm.trans heq)
    exact hkey (List.mem_map.mpr ⟨other, hother, hsame⟩)
  have hcases : ∀ other ∈ m.uploads ++ [upload], other ∈ m.uploads ∨ other = upload := by
    intro other hother
    rcases List.mem_append.mp hother with hother | hother
    · exact .inl hother
    · exact .inr (List.mem_singleton.mp hother)
  -- an earlier upload replaced another key than the current one
  have hnew : ∀ other ∈ m.uploads, NotRejected other → ∀ key,
      other.previousAvatarObjectKey = some key → upload.previousAvatarObjectKey ≠ some key :=
    fun other hother hvalid key hreplaced heq =>
      h.top other hother hvalid key hreplaced (hprevious.symm.trans heq)
  refine ⟨?_, ?_, ?_, ?_, ?_, ?_, ?_⟩
  · rw [List.map_append, List.map_singleton, ← List.concat_eq_append]
    exact h.ids.concat hid
  · intro other hother key heq
    rw [List.map_append]
    refine List.mem_append_left _ ?_
    rcases hcases other hother with hother | rfl
    · exact h.previous other hother key heq
    · obtain ⟨current, hcurrent, hsame, _⟩ := h.current _ (hprevious.symm.trans heq)
      exact List.mem_map.mpr ⟨current, hcurrent, hsame⟩
  · rw [List.map_append, List.map_singleton, ← List.concat_eq_append]
    exact h.keys.concat hkey
  · intro key heq
    cases heq
    exact ⟨upload, List.mem_append_right _ (List.mem_singleton.mpr rfl), rfl, .inl hstatus⟩
  · intro other hother hvalid key heq hcurrent
    cases hcurrent
    rcases hcases other hother with hother | rfl
    · exact hfresh other hother heq
    · exact hown heq
  · intro first hfirst second hsecond hvalid hvalid' key heq heq'
    rcases hcases first hfirst with hold | hlast
    · rcases hcases second hsecond with hold' | hlast'
      · exact h.single first hold second hold' hvalid hvalid' key heq heq'
      · exact absurd (hlast' ▸ heq') (hnew first hold hvalid key heq)
    · rcases hcases second hsecond with hold' | hlast'
      · exact absurd (hlast ▸ heq) (hnew second hold' hvalid' key heq')
      · exact hlast.trans hlast'.symm
  · intro other hother hconfirmed hnone
    rcases hcases other hother with hother | rfl
    · exact h.stored other hother hconfirmed fun above habove =>
        hnone above (List.mem_append_left _ habove)
    · rw [hstatus] at hconfirmed
      cases hconfirmed

theorem AvatarInv.rejects {upload : AvatarUpload} {status : AvatarUploadStatus}
    {objects : AvatarKey → Option StoredObject} (h : AvatarInv m) (hmem : upload ∈ m.uploads)
    (hpending : upload.status = .pending) (hstatus : ¬ NotRejected (processed upload status))
    (hobjects : ∀ key, key ≠ upload.objectKey → objects key = m.objects key)
    (hrestores : m.avatarObjectKey = some upload.objectKey → ∀ previous,
      upload.previousAvatarObjectKey = some previous →
        ∃ other ∈ m.uploads, other.objectKey = previous ∧ NotRejected other) :
    AvatarInv
      { avatarObjectKey := if m.avatarObjectKey = some upload.objectKey then
          upload.previousAvatarObjectKey else m.avatarObjectKey
        uploads := UsersMediaRepository.setStatus m.uploads upload.id status
        objects } := by
  have hset := fun other => mem_setStatus other status h.ids hmem hpending
  -- what is not rejected now is another upload, as before
  have hother : ∀ other ∈ UsersMediaRepository.setStatus m.uploads upload.id status,
      NotRejected other → other ∈ m.uploads ∧ other ≠ upload := by
    intro other hin hvalid
    rcases (hset other).mp hin with rfl | hold
    · exact absurd hvalid hstatus
    · exact hold
  have hkept : ∀ other ∈ m.uploads, NotRejected other → other.objectKey ≠ upload.objectKey →
      ∃ after ∈ UsersMediaRepository.setStatus m.uploads upload.id status,
        after.objectKey = other.objectKey ∧ NotRejected after := by
    intro other hin hvalid hne
    refine ⟨other, (hset other).mpr (.inr ⟨hin, ?_⟩), rfl, hvalid⟩
    rintro rfl
    exact hne rfl
  refine ⟨?_, ?_, ?_, ?_, ?_, ?_, ?_⟩
  · rw [setStatus_map fun _ _ => rfl]
    exact h.ids
  · intro other hin key heq
    rw [setStatus_map fun _ _ => rfl]
    rcases (hset other).mp hin with rfl | ⟨hold, _⟩
    · exact h.previous upload hmem key heq
    · exact h.previous other hold key heq
  · rw [setStatus_map fun _ _ => rfl]
    exact h.keys
  · intro key heq
    simp only at heq
    split at heq
    · rename_i hcurrent
      obtain ⟨other, hin, rfl, hvalid⟩ := hrestores hcurrent key heq
      refine hkept other hin hvalid ?_
      intro hsame
      -- the upload would have replaced its own key, which is the current one
      rw [hsame] at heq
      exact h.top upload hmem (.inl hpending) _ heq hcurrent
    · rename_i hcurrent
      obtain ⟨other, hin, rfl, hvalid⟩ := h.current key heq
      refine hkept other hin hvalid ?_
      intro hsame
      rw [hsame] at heq
      exact hcurrent heq
  · intro other hin hvalid key heq hcurrent
    obtain ⟨hold, hne⟩ := hother other hin hvalid
    simp only at hcurrent
    split at hcurrent
    · exact hne (h.single other hold upload hmem hvalid (.inl hpending) key heq hcurrent)
    · exact h.top other hold hvalid key heq hcurrent
  · intro first hfirst second hsecond hvalid hvalid' key heq heq'
    exact h.single first (hother first hfirst hvalid).1 second (hother second hsecond hvalid').1
      hvalid hvalid' key heq heq'
  · intro other hin hconfirmed hnone
    obtain ⟨hold, hne⟩ := hother other hin (.inr hconfirmed)
    have hkeyne : other.objectKey ≠ upload.objectKey := fun hsame =>
      hne (List.inj_on_of_nodup_map h.keys hold hmem hsame)
    show (objects other.objectKey).isSome = true
    rw [hobjects _ hkeyne]
    refine h.stored other hold hconfirmed fun above habove heq habovec => ?_
    refine hnone above ((hset above).mpr (.inr ⟨habove, ?_⟩)) heq habovec
    rintro rfl
    cases hpending.symm.trans habovec

theorem AvatarInv.confirms {upload : AvatarUpload} {objects : AvatarKey → Option StoredObject}
    (h : AvatarInv m) (hmem : upload ∈ m.uploads) (hpending : upload.status = .pending)
    (hstored : (objects upload.objectKey).isSome)
    (hobjects : ∀ key, upload.previousAvatarObjectKey ≠ some key → objects key = m.objects key) :
    AvatarInv { m with
      uploads := UsersMediaRepository.setStatus m.uploads upload.id .confirmed, objects } := by
  have hset := fun other => mem_setStatus other .confirmed h.ids hmem hpending
  -- every upload is one of before with the same keys, and rejected or not as before
  have hbefore : ∀ other ∈ UsersMediaRepository.setStatus m.uploads upload.id .confirmed,
      ∃ before ∈ m.uploads, before.objectKey = other.objectKey ∧
        before.previousAvatarObjectKey = other.previousAvatarObjectKey ∧
        (NotRejected other → NotRejected before) ∧
        (before = upload ∧ other = processed upload .confirmed ∨ before = other ∧ other ≠ upload) := by
    intro other hin
    rcases (hset other).mp hin with rfl | ⟨hold, hne⟩
    · exact ⟨upload, hmem, rfl, rfl, fun _ => .inl hpending, .inl ⟨rfl, rfl⟩⟩
    · exact ⟨other, hold, rfl, rfl, id, .inr ⟨rfl, hne⟩⟩
  refine ⟨?_, ?_, ?_, ?_, ?_, ?_, ?_⟩
  · rw [setStatus_map fun _ _ => rfl]
    exact h.ids
  · intro other hin key heq
    rw [setStatus_map fun _ _ => rfl]
    obtain ⟨before, hold, _, hprevious, _⟩ := hbefore other hin
    exact h.previous before hold key (hprevious.trans heq)
  · rw [setStatus_map fun _ _ => rfl]
    exact h.keys
  · intro key heq
    obtain ⟨other, hin, rfl, hvalid⟩ := h.current key heq
    by_cases hsame : other = upload
    · subst hsame
      exact ⟨processed other .confirmed, (hset _).mpr (.inl rfl), rfl, .inr rfl⟩
    · exact ⟨other, (hset other).mpr (.inr ⟨hin, hsame⟩), rfl, hvalid⟩
  · intro other hin hvalid key heq
    obtain ⟨before, hold, _, hprevious, hvalid', _⟩ := hbefore other hin
    exact h.top before hold (hvalid' hvalid) key (hprevious.trans heq)
  · intro first hfirst second hsecond hvalid hvalid' key heq heq'
    obtain ⟨before, hold, _, hprevious, hlive, hwas⟩ := hbefore first hfirst
    obtain ⟨before', hold', _, hprevious', hlive', hwas'⟩ := hbefore second hsecond
    have hsame := h.single before hold before' hold' (hlive hvalid) (hlive' hvalid') key
      (hprevious.trans heq) (hprevious'.trans heq')
    rcases hwas with ⟨hb, rfl⟩ | ⟨rfl, hne⟩
    · rcases hwas' with ⟨_, rfl⟩ | ⟨rfl, hne'⟩
      · rfl
      · exact absurd (hsame.symm.trans hb) hne'
    · rcases hwas' with ⟨hb', rfl⟩ | ⟨rfl, _⟩
      · exact absurd (hsame.trans hb') hne
      · exact hsame
  · intro other hin hconfirmed hnone
    show (objects other.objectKey).isSome = true
    rcases (hset other).mp hin with rfl | ⟨hold, hne⟩
    · exact hstored
    · have hkeep : upload.previousAvatarObjectKey ≠ some other.objectKey := by
        intro heq
        exact hnone (processed upload .confirmed) ((hset _).mpr (.inl rfl)) heq rfl
      rw [hobjects _ hkeep]
      refine h.stored other hold hconfirmed fun above habove heq habovec => ?_
      refine hnone above ((hset above).mpr (.inr ⟨habove, ?_⟩)) heq habovec
      rintro rfl
      exact hkeep heq

theorem AvatarMove.inv (h : AvatarMove m input m') (hm : AvatarInv m)
    (hguard : RestoresValid m input) : AvatarInv m' := by
  cases h with
  | stays => exact hm
  | creates upload hid hkey hprevious hstatus => exact hm.creates hid hkey hprevious hstatus
  | @uploads objectKey object =>
    refine ⟨hm.ids, hm.previous, hm.keys, hm.current, hm.top, hm.single, ?_⟩
    intro upload hmem hconfirmed hnone
    by_cases hkey : upload.objectKey = objectKey
    · subst hkey
      simp
    · simpa [hkey] using hm.stored upload hmem hconfirmed hnone
  | @rejects upload status objects hmem hpending hnot hstatus hobjects =>
    have hfind : UsersMediaRepository.findAvatarUploadById m upload.id = some upload :=
      Keyed.find_of_mem _ hm.ids hmem
    exact hm.rejects hmem hpending hstatus hobjects
      (hguard upload hfind hpending rfl hnot)
  | confirms hmem hpending hstored hobjects => exact hm.confirms hmem hpending hstored hobjects

end Steps

/-! ## Whole runs -/

section Runs

variable {m : Avatars} {inputs : List AvatarInput} {outputs : List AvatarOutput}

theorem run_avatarInv (h : Run (Guarded AvatarSteps RestoresValid) withoutAvatar inputs outputs m) :
    AvatarInv m :=
  h.invariant (fun _ _ _ _ hs hstep => (avatarStep_move hstep.1).inv hs hstep.2) withoutAvatar_inv

theorem AvatarInv.safe (h : AvatarInv m) (hnone : ∀ upload ∈ m.uploads, upload.status ≠ .pending) :
    AvatarSafe m := by
  cases hkey : m.avatarObjectKey with
  | none => exact .inl hkey
  | some key =>
    obtain ⟨upload, hmem, rfl, hvalid⟩ := h.current key hkey
    have hconfirmed : upload.status = .confirmed := hvalid.resolve_left (hnone upload hmem)
    refine .inr ⟨upload, hmem, hkey, hconfirmed, h.stored upload hmem hconfirmed ?_⟩
    intro other hother hprevious hconfirmed'
    exact h.top other hother (.inr hconfirmed') _ hprevious hkey

/-- When no upload is pending the avatar is none or a confirmed upload that is in storage, if no job
that rejects the current upload goes back to one that was rejected before. -/
theorem avatar_safe : ∀ inputs outputs (m : Avatars),
    Run (Guarded AvatarSteps RestoresValid) withoutAvatar inputs outputs m →
    (∀ upload ∈ m.uploads, upload.status ≠ .pending) → AvatarSafe m :=
  fun _ _ _ hrun hnone => (run_avatarInv hrun).safe hnone

instance (m : Avatars) : ∀ input, Decidable (RestoresValid m input)
  | .verifyAvatarUpload uploadId objectKey => decidable_of_iff
      ((UsersMediaRepository.findAvatarUploadById m uploadId).all fun upload =>
        decide (upload.status = .pending → upload.objectKey = objectKey →
          isAcceptable m upload = false → m.avatarObjectKey = some upload.objectKey →
          upload.previousAvatarObjectKey.all (fun previous => m.uploads.any fun other =>
            decide (other.objectKey = previous ∧ NotRejected other)) = true)) (by
      simp only [RestoresValid, Option.all_eq_true, List.any_eq_true, decide_eq_true_eq])
  | .createAvatarUploadUrl _ _ _ _ | .upload _ _ => inferInstanceAs (Decidable True)

instance (m : Avatars) : Decidable (AvatarSafe m) := inferInstanceAs (Decidable (_ ∨ _))

/-- A picture that is no more than its first bytes. -/
def jpeg : StoredObject := ⟨some "image/jpeg", [0xff, 0xd8, 0xff]⟩

/-- The first upload is verified and the second one never made. -/
def secondAbsent : List AvatarInput :=
  [.createAvatarUploadUrl ⟨1⟩ 1 "image/jpeg" 3, .upload ⟨1, "jpg"⟩ jpeg,
    .verifyAvatarUpload ⟨1⟩ ⟨1, "jpg"⟩, .createAvatarUploadUrl ⟨2⟩ 2 "image/jpeg" 3,
    .verifyAvatarUpload ⟨2⟩ ⟨2, "jpg"⟩]

/-- The avatar is the first upload again. -/
theorem secondAbsent_safe : ∃ (m : Avatars) (outputs : List AvatarOutput),
    Run AvatarSteps withoutAvatar secondAbsent outputs m ∧
      m.avatarObjectKey = some ⟨1, "jpg"⟩ ∧ AvatarSafe m := by
  obtain ⟨⟨m, outputs⟩, hplay, htest⟩ := (Option.any_eq_true _ _).mp (by decide +kernel :
    ((Trace.play (fun s i => if RestoresValid s i then avatarStep s i else none)
      withoutAvatar secondAbsent).any fun last =>
        last.1.avatarObjectKey = some ⟨1, "jpg"⟩ ∧
          ∀ upload ∈ last.1.uploads, upload.status ≠ .pending) = true)
  obtain ⟨hkey, hnone⟩ := of_decide_eq_true htest
  have hrun := Trace.play_guarded hplay
  exact ⟨m, outputs, hrun.unguarded, hkey, avatar_safe _ _ m hrun hnone⟩

/-- Neither of two uploads is made, and the first one is verified first. -/
def bothAbsent : List AvatarInput :=
  [.createAvatarUploadUrl ⟨1⟩ 1 "image/jpeg" 3, .createAvatarUploadUrl ⟨2⟩ 2 "image/jpeg" 3,
    .verifyAvatarUpload ⟨1⟩ ⟨1, "jpg"⟩, .verifyAvatarUpload ⟨2⟩ ⟨2, "jpg"⟩]

/-- The avatar is the first upload, which is not in storage. -/
theorem bothAbsent_dangles : ∃ (m : Avatars) (outputs : List AvatarOutput),
    Run AvatarSteps withoutAvatar bothAbsent outputs m ∧
      (∀ upload ∈ m.uploads, upload.status ≠ .pending) ∧
      m.avatarObjectKey = some ⟨1, "jpg"⟩ ∧ m.objects ⟨1, "jpg"⟩ = none ∧ ¬ AvatarSafe m := by
  obtain ⟨⟨m, outputs⟩, hplay, htest⟩ := (Option.any_eq_true _ _).mp (by decide +kernel :
    ((Trace.play avatarStep withoutAvatar bothAbsent).any fun last =>
      (∀ upload ∈ last.1.uploads, upload.status ≠ .pending) ∧
        last.1.avatarObjectKey = some ⟨1, "jpg"⟩ ∧ last.1.objects ⟨1, "jpg"⟩ = none ∧
          ¬ AvatarSafe last.1) = true)
  obtain ⟨hnone, hkey, hobject, hunsafe⟩ := of_decide_eq_true htest
  exact ⟨m, outputs, Trace.play_run hplay, hnone, hkey, hobject, hunsafe⟩

end Runs

end Rules
end LivePoly

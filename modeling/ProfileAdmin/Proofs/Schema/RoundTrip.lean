import ProfileAdmin.Proofs.Call.Meaning
import ProfileAdmin.Proofs.Config.Meaning

/-!
# Proofs.Schema.RoundTrip — what is written is read back

Of every message, of the records inside them, and of the settings. Texts may hold any
characters, lists may have any length, and any members may be left out that need not be there.
-/

namespace ProfileAdmin.Schema

open Call (Operation StatusCodeData)
open Config (Verification Debugging Settings)

/-- Every request and every reply is read back as it was written, and so are the records inside them
and the settings. -/
theorem readsBack_messages_and_settings :
    (∀ op : Operation, op.requestShape.ReadsBack) ∧
      (∀ op : Operation, op.responseShape.ReadsBack) ∧
      Profile.Status.shape.ReadsBack ∧
      StatusCodeData.shape.ReadsBack ∧
      Verification.shape.ReadsBack ∧
      Debugging.shape.ReadsBack ∧
      Settings.shape.ReadsBack := by
  refine ⟨fun op => ?_, fun op => ?_, ?_, ?_, ?_, ?_, ?_⟩
  · exact op.requestMeaning.readsBack op.height_requestMeaning
  · exact op.responseMeaning.readsBack op.height_responseMeaning
  · exact Profile.Status.meaning.readsBack (by decide)
  · exact StatusCodeData.meaning.readsBack (by decide)
  · exact Verification.meaning.readsBack (by decide)
  · exact Debugging.meaning.readsBack (by decide)
  · exact Settings.meaning.readsBack (by decide)

end ProfileAdmin.Schema

import SchemaModel.Proofs.Model.Curtailed
import SchemaModel.Proofs.Model.Failures

/-!
# Traced checks agree with acceptance

What a check of a good model finds depends on the model, the value and whether the check halts, but
not on the trail: it is a list of issues, empty exactly when the value is permitted, of which the
trail takes as many as it has room for.  So the verdict is that of acceptance under every setting,
and what a setting leaves out are the last issues, never the first.  Where a platform has bounds, a
run may instead be refused for a value of the model that cannot be written.
-/

namespace SchemaModel

attribute [local instance] Platform.unlimited

namespace Model

theorem delivers_validate [Platform] {model : Model} (h : Good model) (value : Value)
    (settings : ValidatorSettings) :
    Delivers model.Writable (model.validate value settings)
      ⟨model.permits value,
        (recorded settings.failFast (model.failures value [])).take settings.maxIssues⟩ := by
  rw [Delivers, ← validate_eq h]
  exact curtailed_validate h value settings

end Model

end SchemaModel

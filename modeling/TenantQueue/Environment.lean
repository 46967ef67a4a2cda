import TenantQueue.Text.Raw

/-! The variables a process is started with. -/
namespace TenantQueue
open Text

/-- Names and values; of two values of one name the first counts. -/
abbrev Environment := List (String × RawText)

/-- A value that is not UTF-8 counts as not set. -/
def Environment.text? (env : Environment) (name : String) : Option String :=
  (env.lookup name).bind RawText.text?

end TenantQueue

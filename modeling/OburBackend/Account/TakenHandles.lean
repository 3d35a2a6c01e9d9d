import OburBackend.Account.Seeds

/-!
# Signing up when the handle is taken

A new user is added with a seeded handle, the provider's or the derived one. Handles that users have
chosen since are in the same unique column. Both paths answer only a conflict on the provider
identity, so a handle that somebody has already keeps the new user from being added.
-/

namespace OburBackend

open Sql

section

variable {α : Type} {p : Service α} {db : Db} {sub : String} {r : User}

end

end OburBackend

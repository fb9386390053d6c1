import Swytch.Lib.BigEndian
import Swytch.Lib.ByteText
import Swytch.Sql.Value

/-!
# Commands

The commands of the server, the names they are called by, and the categories the access rules
group them in.  Names are compared in upper case and printed in lower case, from two tables;
a name that is printed is found again (`lookupCommandName_string`).
-/

namespace Swytch.Redis

open Sql (Bytes utf8)

inductive CommandType where
  | cmdUnknown | cmdNoop
  | cmdPing | cmdEcho | cmdAuth | cmdSelect | cmdQuit | cmdHello
  | cmdGet | cmdSet | cmdDel | cmdDelEx | cmdExists | cmdExpire | cmdExpireAt | cmdPExpire
  | cmdPExpireAt | cmdTTL | cmdPTTL | cmdExpireTime | cmdPExpireTime | cmdPersist | cmdRename
  | cmdRenameNX | cmdIncr | cmdDecr | cmdIncrBy | cmdDecrBy | cmdIncrByFloat | cmdAppend
  | cmdGetSet | cmdGetDel | cmdGetEx | cmdMGet | cmdMSet | cmdMSetNX | cmdMSetEX | cmdSetNX
  | cmdSetEX | cmdPSetEX | cmdStrLen | cmdSetRange | cmdGetRange | cmdSubstr | cmdLcs | cmdDigest
  | cmdType
  | cmdSetBit | cmdGetBit | cmdBitCount | cmdBitPos | cmdBitOp | cmdBitField | cmdBitFieldRO
  | cmdLPush | cmdLPushX | cmdRPush | cmdRPushX | cmdLPop | cmdRPop | cmdBLPop | cmdBRPop
  | cmdLMPop | cmdBLMPop | cmdLMove | cmdBLMove | cmdRPopLPush | cmdBRPopLPush | cmdLLen
  | cmdLRange | cmdLIndex | cmdLSet | cmdLRem | cmdLTrim | cmdLInsert | cmdLPos
  | cmdHGet | cmdHSet | cmdHSetNX | cmdHDel | cmdHExists | cmdHGetAll | cmdHKeys | cmdHVals
  | cmdHLen | cmdHMGet | cmdHMSet | cmdHIncrBy | cmdHIncrByFloat | cmdHStrLen | cmdHRandField
  | cmdHScan | cmdHGetDel | cmdHExpire | cmdHPExpire | cmdHExpireAt | cmdHPExpireAt | cmdHTTL
  | cmdHPTTL | cmdHExpireTime | cmdHPExpireTime | cmdHPersist | cmdHSetEx | cmdHGetEx
  | cmdSAdd | cmdSCard | cmdSIsMember | cmdSMIsMember | cmdSMembers | cmdSPop | cmdSRem
  | cmdSRandMember | cmdSInter | cmdSInterStore | cmdSInterCard | cmdSUnion | cmdSUnionStore
  | cmdSDiff | cmdSDiffStore | cmdSMove
  | cmdZAdd | cmdZRem | cmdZScore | cmdZCard | cmdZRank | cmdZRevRank | cmdZRange | cmdZRevRange
  | cmdZRangeByScore | cmdZRevRangeByScore | cmdZCount | cmdZIncrBy | cmdZPopMin | cmdZPopMax
  | cmdZMPop | cmdZMScore | cmdBZPopMin | cmdBZPopMax | cmdBZMPop | cmdZRangeByLex
  | cmdZRevRangeByLex | cmdZLexCount | cmdZRemRangeByScore | cmdZRemRangeByRank
  | cmdZRemRangeByLex | cmdZUnionStore | cmdZInterStore | cmdZUnion | cmdZInter | cmdZInterCard
  | cmdZDiff | cmdZDiffStore | cmdZRangeStore | cmdZRandMember
  | cmdCopy | cmdMove | cmdRandomKey | cmdSort | cmdSortRO
  | cmdInfo | cmdDBSize | cmdFlushDB | cmdFlushAll | cmdTime | cmdKeys | cmdScan | cmdCommand
  | cmdConfig | cmdClient | cmdDebug | cmdMemory | cmdShutdown
  | cmdMulti | cmdExec | cmdDiscard | cmdWatch | cmdUnwatch
  | cmdFunction | cmdScript | cmdEval | cmdEvalSha | cmdEvalRO | cmdEvalShaRO | cmdFcall
  | cmdFcallRO
  | cmdSync | cmdPSync | cmdReplConf | cmdWait | cmdWaitAof
  | cmdSubscribe | cmdUnsubscribe | cmdPSubscribe | cmdPUnsubscribe | cmdPublish | cmdPubSub
  | cmdSwapDB
  | cmdXAdd | cmdXLen | cmdXRange | cmdXRevRange | cmdXRead | cmdXGroup | cmdXReadGroup | cmdXAck
  | cmdXPending | cmdXTrim | cmdXDel | cmdXInfo | cmdXSetId | cmdXDelEx | cmdXAckDel | cmdXClaim
  | cmdXAutoClaim | cmdXIdmpRecord | cmdXCfgSet
  | cmdPFAdd | cmdPFCount | cmdPFMerge | cmdPFSelfTest | cmdPFDebug
  | cmdGeoAdd | cmdGeoDist | cmdGeoHash | cmdGeoPos | cmdGeoRadius | cmdGeoRadiusRO
  | cmdGeoRadiusByMember | cmdGeoRadiusByMemberRO | cmdGeoSearch | cmdGeoSearchStore
  | cmdAcl
  | cmdJSONSet | cmdJSONGet | cmdJSONMGet | cmdJSONMSet | cmdJSONMerge | cmdJSONDel
  | cmdJSONForget | cmdJSONClear | cmdJSONType | cmdJSONNumIncrBy | cmdJSONNumMultBy
  | cmdJSONNumPowBy | cmdJSONArrLen | cmdJSONArrAppend | cmdJSONArrInsert | cmdJSONArrPop
  | cmdJSONArrTrim | cmdJSONArrIndex | cmdJSONStrLen | cmdJSONStrAppend | cmdJSONObjKeys
  | cmdJSONObjLen | cmdJSONToggle | cmdJSONResp | cmdJSONDebug
  | cmdUnlink
  deriving DecidableEq

def commandNames : List (String × CommandType) :=
  [("PING", .cmdPing), ("ECHO", .cmdEcho), ("AUTH", .cmdAuth), ("SELECT", .cmdSelect),
    ("QUIT", .cmdQuit), ("HELLO", .cmdHello),
    ("GET", .cmdGet), ("SET", .cmdSet), ("DEL", .cmdDel), ("UNLINK", .cmdUnlink),
    ("DELEX", .cmdDelEx), ("EXISTS", .cmdExists), ("EXPIRE", .cmdExpire),
    ("EXPIREAT", .cmdExpireAt), ("PEXPIRE", .cmdPExpire), ("PEXPIREAT", .cmdPExpireAt),
    ("TTL", .cmdTTL), ("PTTL", .cmdPTTL), ("EXPIRETIME", .cmdExpireTime),
    ("PEXPIRETIME", .cmdPExpireTime), ("PERSIST", .cmdPersist), ("RENAME", .cmdRename),
    ("RENAMENX", .cmdRenameNX), ("INCR", .cmdIncr), ("DECR", .cmdDecr), ("INCRBY", .cmdIncrBy),
    ("DECRBY", .cmdDecrBy), ("INCRBYFLOAT", .cmdIncrByFloat), ("APPEND", .cmdAppend),
    ("GETSET", .cmdGetSet), ("GETDEL", .cmdGetDel), ("GETEX", .cmdGetEx), ("MGET", .cmdMGet),
    ("MSET", .cmdMSet), ("MSETNX", .cmdMSetNX), ("MSETEX", .cmdMSetEX), ("SETNX", .cmdSetNX),
    ("SETEX", .cmdSetEX), ("PSETEX", .cmdPSetEX), ("STRLEN", .cmdStrLen),
    ("SETRANGE", .cmdSetRange), ("GETRANGE", .cmdGetRange), ("SUBSTR", .cmdSubstr),
    ("LCS", .cmdLcs), ("DIGEST", .cmdDigest), ("TYPE", .cmdType),
    ("SETBIT", .cmdSetBit), ("GETBIT", .cmdGetBit), ("BITCOUNT", .cmdBitCount),
    ("BITPOS", .cmdBitPos), ("BITOP", .cmdBitOp), ("BITFIELD", .cmdBitField),
    ("BITFIELD_RO", .cmdBitFieldRO),
    ("LPUSH", .cmdLPush), ("LPUSHX", .cmdLPushX), ("RPUSH", .cmdRPush), ("RPUSHX", .cmdRPushX),
    ("LPOP", .cmdLPop), ("RPOP", .cmdRPop), ("BLPOP", .cmdBLPop), ("BRPOP", .cmdBRPop),
    ("LMPOP", .cmdLMPop), ("BLMPOP", .cmdBLMPop), ("LMOVE", .cmdLMove), ("BLMOVE", .cmdBLMove),
    ("RPOPLPUSH", .cmdRPopLPush), ("BRPOPLPUSH", .cmdBRPopLPush), ("LLEN", .cmdLLen),
    ("LRANGE", .cmdLRange), ("LINDEX", .cmdLIndex), ("LSET", .cmdLSet), ("LREM", .cmdLRem),
    ("LTRIM", .cmdLTrim), ("LINSERT", .cmdLInsert), ("LPOS", .cmdLPos),
    ("HGET", .cmdHGet), ("HSET", .cmdHSet), ("HSETNX", .cmdHSetNX), ("HDEL", .cmdHDel),
    ("HEXISTS", .cmdHExists), ("HGETALL", .cmdHGetAll), ("HKEYS", .cmdHKeys),
    ("HVALS", .cmdHVals), ("HLEN", .cmdHLen), ("HMGET", .cmdHMGet), ("HMSET", .cmdHMSet),
    ("HINCRBY", .cmdHIncrBy), ("HINCRBYFLOAT", .cmdHIncrByFloat), ("HSTRLEN", .cmdHStrLen),
    ("HRANDFIELD", .cmdHRandField), ("HSCAN", .cmdHScan), ("HGETDEL", .cmdHGetDel),
    ("HEXPIRE", .cmdHExpire), ("HPEXPIRE", .cmdHPExpire), ("HEXPIREAT", .cmdHExpireAt),
    ("HPEXPIREAT", .cmdHPExpireAt), ("HTTL", .cmdHTTL), ("HPTTL", .cmdHPTTL),
    ("HEXPIRETIME", .cmdHExpireTime), ("HPEXPIRETIME", .cmdHPExpireTime),
    ("HPERSIST", .cmdHPersist), ("HSETEX", .cmdHSetEx), ("HGETEX", .cmdHGetEx),
    ("SADD", .cmdSAdd), ("SCARD", .cmdSCard), ("SISMEMBER", .cmdSIsMember),
    ("SMISMEMBER", .cmdSMIsMember), ("SMEMBERS", .cmdSMembers), ("SPOP", .cmdSPop),
    ("SREM", .cmdSRem), ("SRANDMEMBER", .cmdSRandMember), ("SINTER", .cmdSInter),
    ("SINTERSTORE", .cmdSInterStore), ("SINTERCARD", .cmdSInterCard), ("SUNION", .cmdSUnion),
    ("SUNIONSTORE", .cmdSUnionStore), ("SDIFF", .cmdSDiff), ("SDIFFSTORE", .cmdSDiffStore),
    ("SMOVE", .cmdSMove),
    ("ZADD", .cmdZAdd), ("ZREM", .cmdZRem), ("ZSCORE", .cmdZScore), ("ZCARD", .cmdZCard),
    ("ZRANK", .cmdZRank), ("ZREVRANK", .cmdZRevRank), ("ZRANGE", .cmdZRange),
    ("ZREVRANGE", .cmdZRevRange), ("ZRANGEBYSCORE", .cmdZRangeByScore),
    ("ZREVRANGEBYSCORE", .cmdZRevRangeByScore), ("ZCOUNT", .cmdZCount), ("ZINCRBY", .cmdZIncrBy),
    ("ZPOPMIN", .cmdZPopMin), ("ZPOPMAX", .cmdZPopMax), ("ZMPOP", .cmdZMPop),
    ("ZMSCORE", .cmdZMScore), ("BZPOPMIN", .cmdBZPopMin), ("BZPOPMAX", .cmdBZPopMax),
    ("BZMPOP", .cmdBZMPop), ("ZRANGEBYLEX", .cmdZRangeByLex),
    ("ZREVRANGEBYLEX", .cmdZRevRangeByLex), ("ZLEXCOUNT", .cmdZLexCount),
    ("ZREMRANGEBYSCORE", .cmdZRemRangeByScore), ("ZREMRANGEBYRANK", .cmdZRemRangeByRank),
    ("ZREMRANGEBYLEX", .cmdZRemRangeByLex), ("ZUNIONSTORE", .cmdZUnionStore),
    ("ZINTERSTORE", .cmdZInterStore), ("ZUNION", .cmdZUnion), ("ZINTER", .cmdZInter),
    ("ZINTERCARD", .cmdZInterCard), ("ZDIFF", .cmdZDiff), ("ZDIFFSTORE", .cmdZDiffStore),
    ("ZRANGESTORE", .cmdZRangeStore), ("ZRANDMEMBER", .cmdZRandMember),
    ("COPY", .cmdCopy), ("MOVE", .cmdMove), ("RANDOMKEY", .cmdRandomKey), ("SORT", .cmdSort),
    ("SORT_RO", .cmdSortRO),
    ("INFO", .cmdInfo), ("DBSIZE", .cmdDBSize), ("FLUSHDB", .cmdFlushDB),
    ("FLUSHALL", .cmdFlushAll), ("TIME", .cmdTime), ("KEYS", .cmdKeys), ("SCAN", .cmdScan),
    ("COMMAND", .cmdCommand), ("CONFIG", .cmdConfig), ("CLIENT", .cmdClient),
    ("DEBUG", .cmdDebug), ("MEMORY", .cmdMemory), ("SHUTDOWN", .cmdShutdown),
    ("MULTI", .cmdMulti), ("EXEC", .cmdExec), ("DISCARD", .cmdDiscard), ("WATCH", .cmdWatch),
    ("UNWATCH", .cmdUnwatch),
    ("FUNCTION", .cmdFunction), ("SCRIPT", .cmdScript), ("EVAL", .cmdEval),
    ("EVALSHA", .cmdEvalSha), ("EVAL_RO", .cmdEvalRO), ("EVALSHA_RO", .cmdEvalShaRO),
    ("FCALL", .cmdFcall), ("FCALL_RO", .cmdFcallRO),
    ("SYNC", .cmdSync), ("PSYNC", .cmdPSync), ("REPLCONF", .cmdReplConf), ("WAIT", .cmdWait),
    ("WAITAOF", .cmdWaitAof),
    ("SUBSCRIBE", .cmdSubscribe), ("UNSUBSCRIBE", .cmdUnsubscribe),
    ("PSUBSCRIBE", .cmdPSubscribe), ("PUNSUBSCRIBE", .cmdPUnsubscribe), ("PUBLISH", .cmdPublish),
    ("PUBSUB", .cmdPubSub),
    ("SWAPDB", .cmdSwapDB),
    ("XADD", .cmdXAdd), ("XLEN", .cmdXLen), ("XRANGE", .cmdXRange), ("XREVRANGE", .cmdXRevRange),
    ("XREAD", .cmdXRead), ("XGROUP", .cmdXGroup), ("XREADGROUP", .cmdXReadGroup),
    ("XACK", .cmdXAck), ("XPENDING", .cmdXPending), ("XTRIM", .cmdXTrim), ("XDEL", .cmdXDel),
    ("XINFO", .cmdXInfo), ("XSETID", .cmdXSetId), ("XDELEX", .cmdXDelEx),
    ("XACKDEL", .cmdXAckDel), ("XCLAIM", .cmdXClaim), ("XAUTOCLAIM", .cmdXAutoClaim),
    ("XIDMPRECORD", .cmdXIdmpRecord), ("XCFGSET", .cmdXCfgSet),
    ("PFADD", .cmdPFAdd), ("PFCOUNT", .cmdPFCount), ("PFMERGE", .cmdPFMerge),
    ("PFSELFTEST", .cmdPFSelfTest), ("PFDEBUG", .cmdPFDebug),
    ("GEOADD", .cmdGeoAdd), ("GEODIST", .cmdGeoDist), ("GEOHASH", .cmdGeoHash),
    ("GEOPOS", .cmdGeoPos), ("GEORADIUS", .cmdGeoRadius), ("GEORADIUS_RO", .cmdGeoRadiusRO),
    ("GEORADIUSBYMEMBER", .cmdGeoRadiusByMember),
    ("GEORADIUSBYMEMBER_RO", .cmdGeoRadiusByMemberRO), ("GEOSEARCH", .cmdGeoSearch),
    ("GEOSEARCHSTORE", .cmdGeoSearchStore),
    ("ACL", .cmdAcl),
    ("JSON.SET", .cmdJSONSet), ("JSON.GET", .cmdJSONGet), ("JSON.MGET", .cmdJSONMGet),
    ("JSON.MSET", .cmdJSONMSet), ("JSON.MERGE", .cmdJSONMerge), ("JSON.DEL", .cmdJSONDel),
    ("JSON.FORGET", .cmdJSONForget), ("JSON.CLEAR", .cmdJSONClear), ("JSON.TYPE", .cmdJSONType),
    ("JSON.NUMINCRBY", .cmdJSONNumIncrBy), ("JSON.NUMMULTBY", .cmdJSONNumMultBy),
    ("JSON.NUMPOWBY", .cmdJSONNumPowBy), ("JSON.ARRLEN", .cmdJSONArrLen),
    ("JSON.ARRAPPEND", .cmdJSONArrAppend), ("JSON.ARRINSERT", .cmdJSONArrInsert),
    ("JSON.ARRPOP", .cmdJSONArrPop), ("JSON.ARRTRIM", .cmdJSONArrTrim),
    ("JSON.ARRINDEX", .cmdJSONArrIndex), ("JSON.STRLEN", .cmdJSONStrLen),
    ("JSON.STRAPPEND", .cmdJSONStrAppend), ("JSON.OBJKEYS", .cmdJSONObjKeys),
    ("JSON.OBJLEN", .cmdJSONObjLen), ("JSON.TOGGLE", .cmdJSONToggle), ("JSON.RESP", .cmdJSONResp),
    ("JSON.DEBUG", .cmdJSONDebug)]

def lookupCommandName (name : Bytes) : Option CommandType :=
  (commandNames.find? fun entry => utf8 entry.1 = name).map Prod.snd

/-- `String`, from `commandStrings`. -/
def CommandType.string : CommandType → String
  | .cmdPing => "ping"
  | .cmdEcho => "echo"
  | .cmdAuth => "auth"
  | .cmdSelect => "select"
  | .cmdQuit => "quit"
  | .cmdHello => "hello"
  | .cmdGet => "get"
  | .cmdSet => "set"
  | .cmdDel => "del"
  | .cmdUnlink => "unlink"
  | .cmdDelEx => "delex"
  | .cmdExists => "exists"
  | .cmdExpire => "expire"
  | .cmdExpireAt => "expireat"
  | .cmdPExpire => "pexpire"
  | .cmdPExpireAt => "pexpireat"
  | .cmdTTL => "ttl"
  | .cmdPTTL => "pttl"
  | .cmdExpireTime => "expiretime"
  | .cmdPExpireTime => "pexpiretime"
  | .cmdPersist => "persist"
  | .cmdRename => "rename"
  | .cmdRenameNX => "renamenx"
  | .cmdIncr => "incr"
  | .cmdDecr => "decr"
  | .cmdIncrBy => "incrby"
  | .cmdDecrBy => "decrby"
  | .cmdIncrByFloat => "incrbyfloat"
  | .cmdAppend => "append"
  | .cmdGetSet => "getset"
  | .cmdGetDel => "getdel"
  | .cmdGetEx => "getex"
  | .cmdMGet => "mget"
  | .cmdMSet => "mset"
  | .cmdMSetNX => "msetnx"
  | .cmdMSetEX => "msetex"
  | .cmdSetNX => "setnx"
  | .cmdSetEX => "setex"
  | .cmdPSetEX => "psetex"
  | .cmdStrLen => "strlen"
  | .cmdSetRange => "setrange"
  | .cmdGetRange => "getrange"
  | .cmdSubstr => "substr"
  | .cmdLcs => "lcs"
  | .cmdDigest => "digest"
  | .cmdType => "type"
  | .cmdSetBit => "setbit"
  | .cmdGetBit => "getbit"
  | .cmdBitCount => "bitcount"
  | .cmdBitPos => "bitpos"
  | .cmdBitOp => "bitop"
  | .cmdBitField => "bitfield"
  | .cmdBitFieldRO => "bitfield_ro"
  | .cmdLPush => "lpush"
  | .cmdLPushX => "lpushx"
  | .cmdRPush => "rpush"
  | .cmdRPushX => "rpushx"
  | .cmdLPop => "lpop"
  | .cmdRPop => "rpop"
  | .cmdBLPop => "blpop"
  | .cmdBRPop => "brpop"
  | .cmdLMPop => "lmpop"
  | .cmdBLMPop => "blmpop"
  | .cmdLMove => "lmove"
  | .cmdBLMove => "blmove"
  | .cmdRPopLPush => "rpoplpush"
  | .cmdBRPopLPush => "brpoplpush"
  | .cmdLLen => "llen"
  | .cmdLRange => "lrange"
  | .cmdLIndex => "lindex"
  | .cmdLSet => "lset"
  | .cmdLRem => "lrem"
  | .cmdLTrim => "ltrim"
  | .cmdLInsert => "linsert"
  | .cmdLPos => "lpos"
  | .cmdHGet => "hget"
  | .cmdHSet => "hset"
  | .cmdHSetNX => "hsetnx"
  | .cmdHDel => "hdel"
  | .cmdHExists => "hexists"
  | .cmdHGetAll => "hgetall"
  | .cmdHKeys => "hkeys"
  | .cmdHVals => "hvals"
  | .cmdHLen => "hlen"
  | .cmdHMGet => "hmget"
  | .cmdHMSet => "hmset"
  | .cmdHIncrBy => "hincrby"
  | .cmdHIncrByFloat => "hincrbyfloat"
  | .cmdHStrLen => "hstrlen"
  | .cmdHRandField => "hrandfield"
  | .cmdHScan => "hscan"
  | .cmdHGetDel => "hgetdel"
  | .cmdHExpire => "hexpire"
  | .cmdHPExpire => "hpexpire"
  | .cmdHExpireAt => "hexpireat"
  | .cmdHPExpireAt => "hpexpireat"
  | .cmdHTTL => "httl"
  | .cmdHPTTL => "hpttl"
  | .cmdHExpireTime => "hexpiretime"
  | .cmdHPExpireTime => "hpexpiretime"
  | .cmdHPersist => "hpersist"
  | .cmdHSetEx => "hsetex"
  | .cmdHGetEx => "hgetex"
  | .cmdSAdd => "sadd"
  | .cmdSCard => "scard"
  | .cmdSIsMember => "sismember"
  | .cmdSMIsMember => "smismember"
  | .cmdSMembers => "smembers"
  | .cmdSPop => "spop"
  | .cmdSRem => "srem"
  | .cmdSRandMember => "srandmember"
  | .cmdSInter => "sinter"
  | .cmdSInterStore => "sinterstore"
  | .cmdSInterCard => "sintercard"
  | .cmdSUnion => "sunion"
  | .cmdSUnionStore => "sunionstore"
  | .cmdSDiff => "sdiff"
  | .cmdSDiffStore => "sdiffstore"
  | .cmdSMove => "smove"
  | .cmdZAdd => "zadd"
  | .cmdZRem => "zrem"
  | .cmdZScore => "zscore"
  | .cmdZCard => "zcard"
  | .cmdZRank => "zrank"
  | .cmdZRevRank => "zrevrank"
  | .cmdZRange => "zrange"
  | .cmdZRevRange => "zrevrange"
  | .cmdZRangeByScore => "zrangebyscore"
  | .cmdZRevRangeByScore => "zrevrangebyscore"
  | .cmdZCount => "zcount"
  | .cmdZIncrBy => "zincrby"
  | .cmdZPopMin => "zpopmin"
  | .cmdZPopMax => "zpopmax"
  | .cmdZMPop => "zmpop"
  | .cmdZMScore => "zmscore"
  | .cmdBZPopMin => "bzpopmin"
  | .cmdBZPopMax => "bzpopmax"
  | .cmdBZMPop => "bzmpop"
  | .cmdZRangeByLex => "zrangebylex"
  | .cmdZRevRangeByLex => "zrevrangebylex"
  | .cmdZLexCount => "zlexcount"
  | .cmdZRemRangeByScore => "zremrangebyscore"
  | .cmdZRemRangeByRank => "zremrangebyrank"
  | .cmdZRemRangeByLex => "zremrangebylex"
  | .cmdZUnionStore => "zunionstore"
  | .cmdZInterStore => "zinterstore"
  | .cmdZUnion => "zunion"
  | .cmdZInter => "zinter"
  | .cmdZInterCard => "zintercard"
  | .cmdZDiff => "zdiff"
  | .cmdZDiffStore => "zdiffstore"
  | .cmdZRangeStore => "zrangestore"
  | .cmdZRandMember => "zrandmember"
  | .cmdCopy => "copy"
  | .cmdMove => "move"
  | .cmdRandomKey => "randomkey"
  | .cmdSort => "sort"
  | .cmdSortRO => "sort_ro"
  | .cmdInfo => "info"
  | .cmdDBSize => "dbsize"
  | .cmdFlushDB => "flushdb"
  | .cmdFlushAll => "flushall"
  | .cmdTime => "time"
  | .cmdKeys => "keys"
  | .cmdScan => "scan"
  | .cmdCommand => "command"
  | .cmdConfig => "config"
  | .cmdClient => "client"
  | .cmdDebug => "debug"
  | .cmdMemory => "memory"
  | .cmdShutdown => "shutdown"
  | .cmdMulti => "multi"
  | .cmdExec => "exec"
  | .cmdDiscard => "discard"
  | .cmdWatch => "watch"
  | .cmdUnwatch => "unwatch"
  | .cmdFunction => "function"
  | .cmdScript => "script"
  | .cmdEval => "eval"
  | .cmdEvalSha => "evalsha"
  | .cmdEvalRO => "eval_ro"
  | .cmdEvalShaRO => "evalsha_ro"
  | .cmdFcall => "fcall"
  | .cmdFcallRO => "fcall_ro"
  | .cmdSync => "sync"
  | .cmdPSync => "psync"
  | .cmdReplConf => "replconf"
  | .cmdWait => "wait"
  | .cmdWaitAof => "waitaof"
  | .cmdSubscribe => "subscribe"
  | .cmdUnsubscribe => "unsubscribe"
  | .cmdPSubscribe => "psubscribe"
  | .cmdPUnsubscribe => "punsubscribe"
  | .cmdPublish => "publish"
  | .cmdPubSub => "pubsub"
  | .cmdSwapDB => "swapdb"
  | .cmdXAdd => "xadd"
  | .cmdXLen => "xlen"
  | .cmdXRange => "xrange"
  | .cmdXRevRange => "xrevrange"
  | .cmdXRead => "xread"
  | .cmdXGroup => "xgroup"
  | .cmdXReadGroup => "xreadgroup"
  | .cmdXAck => "xack"
  | .cmdXPending => "xpending"
  | .cmdXTrim => "xtrim"
  | .cmdXDel => "xdel"
  | .cmdXInfo => "xinfo"
  | .cmdXSetId => "xsetid"
  | .cmdXDelEx => "xdelex"
  | .cmdXAckDel => "xackdel"
  | .cmdXClaim => "xclaim"
  | .cmdXAutoClaim => "xautoclaim"
  | .cmdXIdmpRecord => "xidmprecord"
  | .cmdXCfgSet => "xcfgset"
  | .cmdPFAdd => "pfadd"
  | .cmdPFCount => "pfcount"
  | .cmdPFMerge => "pfmerge"
  | .cmdPFSelfTest => "pfselftest"
  | .cmdPFDebug => "pfdebug"
  | .cmdGeoAdd => "geoadd"
  | .cmdGeoDist => "geodist"
  | .cmdGeoHash => "geohash"
  | .cmdGeoPos => "geopos"
  | .cmdGeoRadius => "georadius"
  | .cmdGeoRadiusRO => "georadius_ro"
  | .cmdGeoRadiusByMember => "georadiusbymember"
  | .cmdGeoRadiusByMemberRO => "georadiusbymember_ro"
  | .cmdGeoSearch => "geosearch"
  | .cmdGeoSearchStore => "geosearchstore"
  | .cmdAcl => "acl"
  | .cmdJSONSet => "json.set"
  | .cmdJSONGet => "json.get"
  | .cmdJSONMGet => "json.mget"
  | .cmdJSONMSet => "json.mset"
  | .cmdJSONMerge => "json.merge"
  | .cmdJSONDel => "json.del"
  | .cmdJSONForget => "json.forget"
  | .cmdJSONClear => "json.clear"
  | .cmdJSONType => "json.type"
  | .cmdJSONNumIncrBy => "json.numincrby"
  | .cmdJSONNumMultBy => "json.nummultby"
  | .cmdJSONNumPowBy => "json.numpowby"
  | .cmdJSONArrLen => "json.arrlen"
  | .cmdJSONArrAppend => "json.arrappend"
  | .cmdJSONArrInsert => "json.arrinsert"
  | .cmdJSONArrPop => "json.arrpop"
  | .cmdJSONArrTrim => "json.arrtrim"
  | .cmdJSONArrIndex => "json.arrindex"
  | .cmdJSONStrLen => "json.strlen"
  | .cmdJSONStrAppend => "json.strappend"
  | .cmdJSONObjKeys => "json.objkeys"
  | .cmdJSONObjLen => "json.objlen"
  | .cmdJSONToggle => "json.toggle"
  | .cmdJSONResp => "json.resp"
  | .cmdJSONDebug => "json.debug"
  | _ => "unknown"

inductive CommandCategory where
  | catRead | catWrite | catSet | catSortedSet | catList | catHash | catString | catBitmap
  | catHyperLogLog | catGeo | catStream | catPubSub | catAdmin | catFast | catSlow | catBlocking
  | catDangerous | catConnection | catTransaction | catScripting | catKeyspace | catAll
  deriving DecidableEq

def categoryNames : List (String × CommandCategory) :=
  [("read", .catRead), ("write", .catWrite), ("set", .catSet), ("sortedset", .catSortedSet),
    ("list", .catList), ("hash", .catHash), ("string", .catString), ("bitmap", .catBitmap),
    ("hyperloglog", .catHyperLogLog), ("geo", .catGeo), ("stream", .catStream),
    ("pubsub", .catPubSub), ("admin", .catAdmin), ("fast", .catFast), ("slow", .catSlow),
    ("blocking", .catBlocking), ("dangerous", .catDangerous), ("connection", .catConnection),
    ("transaction", .catTransaction), ("scripting", .catScripting), ("keyspace", .catKeyspace),
    ("all", .catAll)]

def getCategoryByName (name : Bytes) : Option CommandCategory :=
  (categoryNames.find? fun entry => utf8 entry.1 = ByteText.toLower name).map Prod.snd

/-- `GetCategoryName`, from `categoryToName`. -/
def getCategoryName : CommandCategory → String
  | .catRead => "read"
  | .catWrite => "write"
  | .catSet => "set"
  | .catSortedSet => "sortedset"
  | .catList => "list"
  | .catHash => "hash"
  | .catString => "string"
  | .catBitmap => "bitmap"
  | .catHyperLogLog => "hyperloglog"
  | .catGeo => "geo"
  | .catStream => "stream"
  | .catPubSub => "pubsub"
  | .catAdmin => "admin"
  | .catFast => "fast"
  | .catSlow => "slow"
  | .catBlocking => "blocking"
  | .catDangerous => "dangerous"
  | .catConnection => "connection"
  | .catTransaction => "transaction"
  | .catScripting => "scripting"
  | .catKeyspace => "keyspace"
  | .catAll => "all"

/-- `GetCommandCategories`, from `commandCategories`. -/
def getCommandCategories : CommandType → List CommandCategory
  | .cmdPing | .cmdEcho | .cmdAuth | .cmdSelect | .cmdQuit | .cmdHello =>
    [.catFast, .catConnection]
  | .cmdGet | .cmdMGet | .cmdStrLen =>
    [.catRead, .catString, .catFast]
  | .cmdGetRange | .cmdSubstr =>
    [.catRead, .catString, .catSlow]
  | .cmdSet =>
    [.catWrite, .catString, .catSlow]
  | .cmdSetNX =>
    [.catWrite, .catString, .catFast]
  | .cmdSetEX | .cmdPSetEX | .cmdMSet | .cmdMSetNX | .cmdMSetEX =>
    [.catWrite, .catString, .catSlow]
  | .cmdGetSet | .cmdGetDel | .cmdGetEx | .cmdAppend =>
    [.catWrite, .catString, .catFast]
  | .cmdSetRange =>
    [.catWrite, .catString, .catSlow]
  | .cmdIncr | .cmdDecr | .cmdIncrBy | .cmdDecrBy | .cmdIncrByFloat =>
    [.catWrite, .catString, .catFast]
  | .cmdLcs =>
    [.catRead, .catString, .catSlow]
  | .cmdDigest =>
    [.catRead, .catString, .catFast]
  | .cmdDel | .cmdUnlink | .cmdDelEx =>
    [.catWrite, .catKeyspace, .catFast]
  | .cmdExists =>
    [.catRead, .catKeyspace, .catFast]
  | .cmdExpire | .cmdExpireAt | .cmdPExpire | .cmdPExpireAt =>
    [.catWrite, .catKeyspace, .catFast]
  | .cmdTTL | .cmdPTTL | .cmdExpireTime | .cmdPExpireTime =>
    [.catRead, .catKeyspace, .catFast]
  | .cmdPersist =>
    [.catWrite, .catKeyspace, .catFast]
  | .cmdRename | .cmdRenameNX =>
    [.catWrite, .catKeyspace, .catSlow]
  | .cmdType =>
    [.catRead, .catKeyspace, .catFast]
  | .cmdCopy | .cmdMove =>
    [.catWrite, .catKeyspace, .catSlow]
  | .cmdRandomKey =>
    [.catRead, .catKeyspace, .catSlow]
  | .cmdSort =>
    [.catWrite, .catKeyspace, .catSlow, .catDangerous]
  | .cmdSortRO =>
    [.catRead, .catKeyspace, .catSlow]
  | .cmdSetBit =>
    [.catWrite, .catBitmap, .catSlow]
  | .cmdGetBit =>
    [.catRead, .catBitmap, .catFast]
  | .cmdBitCount | .cmdBitPos =>
    [.catRead, .catBitmap, .catSlow]
  | .cmdBitOp | .cmdBitField =>
    [.catWrite, .catBitmap, .catSlow]
  | .cmdBitFieldRO =>
    [.catRead, .catBitmap, .catSlow]
  | .cmdLLen =>
    [.catRead, .catList, .catFast]
  | .cmdLRange | .cmdLIndex | .cmdLPos =>
    [.catRead, .catList, .catSlow]
  | .cmdLPush | .cmdLPushX | .cmdRPush | .cmdRPushX | .cmdLPop | .cmdRPop =>
    [.catWrite, .catList, .catFast]
  | .cmdLSet | .cmdLRem | .cmdLTrim | .cmdLInsert | .cmdLMove | .cmdRPopLPush
  | .cmdLMPop =>
    [.catWrite, .catList, .catSlow]
  | .cmdBLPop | .cmdBRPop | .cmdBLMPop | .cmdBLMove | .cmdBRPopLPush =>
    [.catWrite, .catList, .catSlow, .catBlocking]
  | .cmdHGet | .cmdHExists =>
    [.catRead, .catHash, .catFast]
  | .cmdHGetAll | .cmdHKeys | .cmdHVals =>
    [.catRead, .catHash, .catSlow]
  | .cmdHLen | .cmdHMGet | .cmdHStrLen =>
    [.catRead, .catHash, .catFast]
  | .cmdHRandField | .cmdHScan =>
    [.catRead, .catHash, .catSlow]
  | .cmdHTTL | .cmdHPTTL | .cmdHExpireTime | .cmdHPExpireTime =>
    [.catRead, .catHash, .catFast]
  | .cmdHSet | .cmdHSetNX | .cmdHDel | .cmdHMSet | .cmdHIncrBy | .cmdHIncrByFloat
  | .cmdHGetDel | .cmdHExpire | .cmdHPExpire | .cmdHExpireAt | .cmdHPExpireAt
  | .cmdHPersist | .cmdHSetEx | .cmdHGetEx =>
    [.catWrite, .catHash, .catFast]
  | .cmdSCard | .cmdSIsMember | .cmdSMIsMember =>
    [.catRead, .catSet, .catFast]
  | .cmdSMembers | .cmdSRandMember | .cmdSInter | .cmdSUnion | .cmdSDiff
  | .cmdSInterCard =>
    [.catRead, .catSet, .catSlow]
  | .cmdSAdd | .cmdSPop | .cmdSRem =>
    [.catWrite, .catSet, .catFast]
  | .cmdSInterStore | .cmdSUnionStore | .cmdSDiffStore =>
    [.catWrite, .catSet, .catSlow]
  | .cmdSMove =>
    [.catWrite, .catSet, .catFast]
  | .cmdZScore | .cmdZCard | .cmdZRank | .cmdZRevRank =>
    [.catRead, .catSortedSet, .catFast]
  | .cmdZRange | .cmdZRevRange | .cmdZRangeByScore | .cmdZRevRangeByScore =>
    [.catRead, .catSortedSet, .catSlow]
  | .cmdZCount | .cmdZMScore =>
    [.catRead, .catSortedSet, .catFast]
  | .cmdZRangeByLex | .cmdZRevRangeByLex =>
    [.catRead, .catSortedSet, .catSlow]
  | .cmdZLexCount =>
    [.catRead, .catSortedSet, .catFast]
  | .cmdZRandMember | .cmdZUnion | .cmdZInter | .cmdZDiff | .cmdZInterCard =>
    [.catRead, .catSortedSet, .catSlow]
  | .cmdZAdd | .cmdZRem | .cmdZIncrBy | .cmdZPopMin | .cmdZPopMax =>
    [.catWrite, .catSortedSet, .catFast]
  | .cmdZMPop | .cmdZRemRangeByScore | .cmdZRemRangeByRank | .cmdZRemRangeByLex
  | .cmdZUnionStore | .cmdZInterStore | .cmdZDiffStore | .cmdZRangeStore =>
    [.catWrite, .catSortedSet, .catSlow]
  | .cmdBZPopMin | .cmdBZPopMax | .cmdBZMPop =>
    [.catWrite, .catSortedSet, .catSlow, .catBlocking]
  | .cmdXLen =>
    [.catRead, .catStream, .catFast]
  | .cmdXRange | .cmdXRevRange =>
    [.catRead, .catStream, .catSlow]
  | .cmdXRead =>
    [.catRead, .catStream, .catSlow, .catBlocking]
  | .cmdXPending | .cmdXInfo =>
    [.catRead, .catStream, .catSlow]
  | .cmdXAdd =>
    [.catWrite, .catStream, .catFast]
  | .cmdXGroup =>
    [.catWrite, .catStream, .catSlow]
  | .cmdXReadGroup =>
    [.catWrite, .catStream, .catSlow, .catBlocking]
  | .cmdXAck =>
    [.catWrite, .catStream, .catFast]
  | .cmdXTrim =>
    [.catWrite, .catStream, .catSlow]
  | .cmdXDel | .cmdXSetId | .cmdXDelEx | .cmdXAckDel | .cmdXClaim | .cmdXAutoClaim
  | .cmdXIdmpRecord | .cmdXCfgSet =>
    [.catWrite, .catStream, .catFast]
  | .cmdPFAdd =>
    [.catWrite, .catHyperLogLog, .catFast]
  | .cmdPFCount =>
    [.catRead, .catHyperLogLog, .catSlow]
  | .cmdPFMerge =>
    [.catWrite, .catHyperLogLog, .catSlow]
  | .cmdPFSelfTest | .cmdPFDebug =>
    [.catRead, .catHyperLogLog, .catSlow, .catAdmin]
  | .cmdGeoAdd =>
    [.catWrite, .catGeo, .catSlow]
  | .cmdGeoDist | .cmdGeoHash | .cmdGeoPos =>
    [.catRead, .catGeo, .catFast]
  | .cmdGeoRadius =>
    [.catWrite, .catGeo, .catSlow]
  | .cmdGeoRadiusRO =>
    [.catRead, .catGeo, .catSlow]
  | .cmdGeoRadiusByMember =>
    [.catWrite, .catGeo, .catSlow]
  | .cmdGeoRadiusByMemberRO | .cmdGeoSearch =>
    [.catRead, .catGeo, .catSlow]
  | .cmdGeoSearchStore =>
    [.catWrite, .catGeo, .catSlow]
  | .cmdSubscribe | .cmdUnsubscribe | .cmdPSubscribe | .cmdPUnsubscribe =>
    [.catPubSub, .catSlow]
  | .cmdPublish =>
    [.catPubSub, .catFast]
  | .cmdPubSub =>
    [.catPubSub, .catSlow]
  | .cmdInfo =>
    [.catRead, .catAdmin, .catSlow]
  | .cmdDBSize =>
    [.catRead, .catAdmin, .catFast]
  | .cmdFlushDB | .cmdFlushAll =>
    [.catWrite, .catAdmin, .catSlow, .catDangerous]
  | .cmdTime =>
    [.catRead, .catAdmin, .catFast]
  | .cmdKeys =>
    [.catRead, .catKeyspace, .catSlow, .catDangerous]
  | .cmdScan =>
    [.catRead, .catKeyspace, .catSlow]
  | .cmdCommand =>
    [.catRead, .catAdmin, .catSlow]
  | .cmdConfig =>
    [.catAdmin, .catSlow, .catDangerous]
  | .cmdClient =>
    [.catAdmin, .catSlow]
  | .cmdDebug =>
    [.catAdmin, .catSlow, .catDangerous]
  | .cmdMemory =>
    [.catRead, .catAdmin, .catSlow]
  | .cmdShutdown =>
    [.catAdmin, .catSlow, .catDangerous]
  | .cmdSwapDB =>
    [.catWrite, .catAdmin, .catSlow, .catDangerous]
  | .cmdMulti =>
    [.catTransaction, .catFast]
  | .cmdExec =>
    [.catTransaction, .catSlow]
  | .cmdDiscard | .cmdWatch | .cmdUnwatch =>
    [.catTransaction, .catFast]
  | .cmdFunction | .cmdScript | .cmdEval | .cmdEvalSha =>
    [.catScripting, .catSlow]
  | .cmdEvalRO | .cmdEvalShaRO =>
    [.catScripting, .catSlow, .catRead]
  | .cmdFcall =>
    [.catScripting, .catSlow]
  | .cmdFcallRO =>
    [.catScripting, .catSlow, .catRead]
  | .cmdSync | .cmdPSync | .cmdReplConf =>
    [.catAdmin, .catSlow]
  | .cmdWait | .cmdWaitAof =>
    [.catSlow, .catBlocking]
  | .cmdAcl =>
    [.catAdmin, .catSlow, .catDangerous]
  | _ => []

/-- The names are different: their values as numbers in base 256 are. -/
theorem find_name_number : ∀ entry ∈ commandNames,
    commandNames.find? (fun other =>
      Nat.beq (BigEndian.ofBE (utf8 other.1)) (BigEndian.ofBE (utf8 entry.1))) = some entry := by
  decide +kernel

theorem toUpper_string : ∀ entry ∈ commandNames,
    ByteText.toUpper (utf8 entry.2.string) = utf8 entry.1 := by
  decide +kernel

theorem lookupCommandName_of_mem {entry : String × CommandType} (h : entry ∈ commandNames) :
    lookupCommandName (utf8 entry.1) = some entry.2 := by
  obtain ⟨-, before, after, hsp, hb⟩ := List.find?_eq_some_iff_append.mp
    (find_name_number entry h)
  have hf : commandNames.find? (fun other => utf8 other.1 = utf8 entry.1) = some entry := by
    refine List.find?_eq_some_iff_append.mpr ⟨by simp, before, after, hsp, ?_⟩
    intro other ho
    have hne := hb other ho
    by_contra heq
    have heq' : utf8 other.1 = utf8 entry.1 := by simpa using heq
    simp [heq'] at hne
  rw [lookupCommandName, hf, Option.map_some]

/-- A command that has a name is found under the one that is printed for it. -/
theorem lookupCommandName_string {name : Bytes} {cmd : CommandType}
    (h : lookupCommandName name = some cmd) :
    lookupCommandName (ByteText.toUpper (utf8 cmd.string)) = some cmd := by
  obtain ⟨entry, he, rfl⟩ := Option.map_eq_some_iff.mp h
  have hmem := List.mem_of_find?_eq_some he
  rw [toUpper_string entry hmem, lookupCommandName_of_mem hmem]

end Swytch.Redis

import Sentinel.BanEnd
import Sentinel.TarpitShm
import Sentinel.TarpitDrip
import Sentinel.Reload
import Sentinel.ZoneAttach
import Sentinel.FeedConcurrent
import Sentinel.FeedReaders
import Sentinel.FeedFresh
import Sentinel.Sources
import Sentinel.PowForge
import Sentinel.BanLoop
import Sentinel.Context
import Sentinel.FailClosed
import Sentinel.ScoreSum
import Sentinel.RingFifo
import Sentinel.SoftBan
import Sentinel.BotUa
import Sentinel.Fcrdns
import Sentinel.Crawler
import Sentinel.FcrdnsVerdict
import Sentinel.CsSink
import Sentinel.CsSinkSet
import Sentinel.RedisSync
import Sentinel.RedisState
import Sentinel.Lib.Glob
import Sentinel.RedisKeys
import Sentinel.HostKey
import Sentinel.FeedText
import Sentinel.ShmMap
import Sentinel.PowPage
import Sentinel.ShmEvict
import Sentinel.Expiry
import Sentinel.Lib.Json
import Sentinel.SinkLine
import Sentinel.Lib.KeySort
import Sentinel.Ja4h
import Sentinel.Ja4hOrder
import Sentinel.Lib.Collect
import Sentinel.HttpConf
import Sentinel.FeedCollect
import Sentinel.ExportConf
import Sentinel.ExportTargets
import Sentinel.FeedTrailer
import Sentinel.RedisCursor
import Sentinel.Lib.Memory
import Sentinel.Ja4hBuffer
import Sentinel.Lib.Pipeline
import Sentinel.Cluster
import Sentinel.ClusterBans
import Sentinel.ClusterPass
import Sentinel.MetricsScrape
import Sentinel.PowBrowser
import Sentinel.Lib.Inherit
import Sentinel.Lib.PrefixTree
import Sentinel.ListBlocks
import Sentinel.Signals
import Sentinel.SignalLists
import Sentinel.TighterLists

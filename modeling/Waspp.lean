import Waspp.Foundation.Incremental
import Waspp.Foundation.Double
import Waspp.Foundation.CString
import Waspp.Foundation.Numerals
import Waspp.Foundation.Search
import Waspp.Foundation.Transducer
import Waspp.Foundation.Interaction
import Waspp.Foundation.TwoRuns
import Waspp.Foundation.Crc32
import Waspp.Foundation.Md5
import Waspp.Foundation.TextArchive
import Waspp.Foundation.Framing
import Waspp.Foundation.Paths
import Waspp.Foundation.Volumes
import Waspp.Foundation.SignalSet
import Waspp.Foundation.LittleEndian
import Waspp.Foundation.Html
import Waspp.Foundation.Resumable
import Waspp.Foundation.Exclusion
import Waspp.Model.Request
import Waspp.Model.RequestParser
import Waspp.Model.Response
import Waspp.Model.Utility
import Waspp.Model.Content
import Waspp.Model.Connection
import Waspp.Model.ConnectionSsl
import Waspp.Model.Config
import Waspp.Model.Database
import Waspp.Model.Session
import Waspp.Model.Router
import Waspp.Model.Documents
import Waspp.Model.RouteDirUser
import Waspp.Model.RouteDirForum
import Waspp.Model.RouteDirPerformance
import Waspp.Model.RequestHandler
import Waspp.Model.Scopes
import Waspp.Proofs.Handlers
import Waspp.Proofs.PercentCoding
import Waspp.Proofs.Chunking
import Waspp.Proofs.RequestGrammar
import Waspp.Proofs.Segmentation
import Waspp.Proofs.AccessControl
import Waspp.Proofs.Cookies
import Waspp.Proofs.ContentFaults
import Waspp.Proofs.ReadFaults
import Waspp.Proofs.SameMachine
import Waspp.Proofs.ResponseFraming
import Waspp.Proofs.DocRoot
import Waspp.Model.Pools
import Waspp.Model.Mysqlpp
import Waspp.Model.Checkout
import Waspp.Model.Redis3m
import Waspp.Model.Logger
import Waspp.Model.Server
import Waspp.Model.MysqlResult
import Waspp.Model.HiredisRead
import Waspp.Model.Hiredis
import Waspp.Proofs.Ownership
import Waspp.Proofs.PoolExclusivity
import Waspp.Proofs.PoolSize
import Waspp.Proofs.RedisReplies
import Waspp.Proofs.ShardLookup
import Waspp.Proofs.UniqueKeys
import Waspp.Proofs.SessionLoad
import Waspp.Proofs.Registration
import Waspp.Proofs.SignIn
import Waspp.Proofs.ForumVisibility
import Waspp.Proofs.Dispatch
import Waspp.Proofs.SessionUse
import Waspp.Proofs.SessionDescent
import Waspp.Proofs.SessionTravel
import Waspp.Proofs.LogRotation
import Waspp.Proofs.LogPeriods
import Waspp.Proofs.ServerStop
import Waspp.Proofs.ContentLength
import Waspp.Proofs.QueryTravel
import Waspp.Proofs.FormBodies
import Waspp.Proofs.MultipartBodies
import Waspp.Proofs.MultipartPieces
import Waspp.Proofs.HeaderOrder
import Waspp.Proofs.ColumnValues
import Waspp.Proofs.FetchLaw
import Waspp.Proofs.FirstCalls
import Waspp.Proofs.SessionVisible
import Waspp.Proofs.CookieBytes
import Waspp.Proofs.UrlDecoders
import Waspp.Proofs.PathSegments
import Waspp.Proofs.ServedFiles
import Waspp.Proofs.QueryRouting
import Waspp.Proofs.PageMarkup
import Waspp.Proofs.HeadReading
import Waspp.Proofs.HeaderCase
import Waspp.Proofs.CookieRoundTrip
import Waspp.Proofs.LastEntries
import Waspp.Proofs.DecoderReads
import Waspp.Proofs.Base64Coding
import Waspp.Proofs.Datetimes
import Waspp.Proofs.ForumNames
import Waspp.Proofs.IntRanges
import Waspp.Proofs.ReplyTexts
import Waspp.Proofs.ReplyCalls
import Waspp.Proofs.RedisCommands
import Waspp.Model.RedisExchange
import Waspp.Proofs.RedisExchanges
import Waspp.Proofs.WholeServer
import Waspp.Proofs.RequestWrites
import Waspp.Model.Redis3mReply
import Waspp.Proofs.RedisQueue
import Waspp.Model.RedisOverHiredis
import Waspp.Proofs.RedisPoolReplies
import Waspp.Model.PoolThreads
import Waspp.Proofs.PoolSections
import Waspp.Foundation.IdleTimer
import Waspp.Proofs.SessionIdle

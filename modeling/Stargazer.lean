import Stargazer.Lib.RemoveIf
import Stargazer.Lib.Run
import Stargazer.Lib.SortedWalk
import Stargazer.Lib.LockTrace
import Stargazer.Lib.AssocMap
import Stargazer.Lib.Feistel
import Stargazer.Lib.Blocks
import Stargazer.Lib.Ledger
import Stargazer.Basic
import Stargazer.Tariffs.TariffImpl
import Stargazer.Users.UserImpl
import Stargazer.Users.Billing
import Stargazer.Admins.AdminsImpl
import Stargazer.Tariffs.TariffsImpl
import Stargazer.Users.UsersImpl
import Stargazer.Users.Locks
import Stargazer.Users.Session
import Stargazer.Users.CashRace
import Stargazer.Users.DetailStat
import Stargazer.Users.Fees
import Stargazer.Users.NewDay
import Stargazer.Users.PassiveTime
import Stargazer.Traffic.Counter
import Stargazer.Traffic.Period
import Stargazer.Users.Counters
import Stargazer.Traffic.System
import Stargazer.Traffic.Steps
import Stargazer.Traffic.Attribution
import Stargazer.Traffic.Conservation
import Stargazer.Crypto.Tables
import Stargazer.Crypto.Blowfish
import Stargazer.Crypto.BFStream
import Stargazer.Config.Conn
import Stargazer.InetAccess.Packets
import Stargazer.Config.Login
import Stargazer.Config.ChgUser
import Stargazer.Config.Outcome
import Stargazer.Config.Ownership
import Stargazer.Registry.ConfRegistry
import Stargazer.Registry.Atomic
import Stargazer.Registry.Searches
import Stargazer.InetAccess.AuthIa
import Stargazer.InetAccess.Sessions
import Stargazer.InetAccess.Client
import Stargazer.InetAccess.Expiry
import Stargazer.InetAccess.Challenge
import Stargazer.InetAccess.Isolation
import Stargazer.InetAccess.Directions
import Stargazer.Users.Deletion
import Stargazer.Subscriptions
import Stargazer.RScript.RemoteScript
import Stargazer.RScript.Agreement
import Stargazer.RScript.Listener
import Stargazer.RScript.Codec
import Stargazer.Lib.OrderedMap
import Stargazer.Lib.CString
import Stargazer.Lib.PrefixRange
import Stargazer.Lib.Xml
import Stargazer.Smux
import Stargazer.Store.ConfigFile
import Stargazer.Users.UserIPs
import Stargazer.Store.UserConf
import Stargazer.Common
import Stargazer.Lib.Mirror
import Stargazer.Store.Services
import Stargazer.Store.Tariffs
import Stargazer.Store.Restart
import Stargazer.SrvConf.ChgUser
import Stargazer.Config.SetUser
import Stargazer.SrvConf.Container
import Stargazer.SrvConf.GetUser
import Stargazer.SrvConf.TariffText
import Stargazer.RpcConfig.Sessions
import Stargazer.RpcConfig.UserHelper
import Stargazer.AlwaysOnline.AuthAo
import Stargazer.Tariffs.Prices
import Stargazer.Users.Chunks
import Stargazer.Users.LargerSide
import Stargazer.Users.FeeRules
import Stargazer.Users.Disabled
import Stargazer.Radius
import Stargazer.RadiusConfig
import Stargazer.InetAccess.IaClientProt
import Stargazer.Ping
import Stargazer.Registry.Lookups
import Stargazer.Lib.EraseScan
import Stargazer.Users.Messages
import Stargazer.Config.Message
import Stargazer.InetAccess.Bounds
import Stargazer.Crypto.Padding
import Stargazer.SrvConf.NetTransact
import Stargazer.Config.SlashedList
import Stargazer.Lib.Halting
import Stargazer.Config.SetTariff
import Stargazer.Config.MissingData
import Stargazer.Lib.PackedWords
import Stargazer.Lib.Stdio
import Stargazer.Lib.BitPrefix
import Stargazer.Lib.Comparator
import Stargazer.Lib.CopyLoop
import Stargazer.Crypto.Packed
import Stargazer.Store.UserStat
import Stargazer.Store.Admins
import Stargazer.Store.Messages
import Stargazer.Store.SaveFile
import Stargazer.Users.ParsedIPs
import Stargazer.Users.Authorization
import Stargazer.Traffic.NetFlow
import Stargazer.Traffic.PacketOrder
import Stargazer.Traffic.Stopping
import Stargazer.Traffic.Rules
import Stargazer.Traffic.FirstMatch
import Stargazer.Lib.Numerals
import Stargazer.Lib.Words
import Stargazer.Numbers
import Stargazer.RScript.MapFile
import Stargazer.Config.TariffRequests
import Stargazer.Tariffs.DayNight
import Stargazer.Lib.XmlRpc
import Stargazer.Lib.Split
import Stargazer.Lib.Replace
import Stargazer.Lib.FairRun
import Stargazer.AsyncPool
import Stargazer.RpcConfig.Structures
import Stargazer.RpcConfig.SetUserInfo
import Stargazer.RpcConfig.Methods
import Stargazer.SrvConf.TrafficStat
import Stargazer.Lib.Fields
import Stargazer.SrvConf.TariffFields
import Stargazer.SrvConf.GetTariff
import Stargazer.Config.TimeSpans
import Stargazer.SrvConf.ChgTariff
import Stargazer.Config.TariffCodecs
import Stargazer.Dotconf.Words
import Stargazer.Dotconf.Document
import Stargazer.Dotconf.Outline
import Stargazer.Lib.Brackets
import Stargazer.Dotconf.Tags
import Stargazer.Dotconf.Links
import Stargazer.Settings.Options
import Stargazer.Settings.ReadSettings
import Stargazer.Settings.Text
import Stargazer.Settings.Reload

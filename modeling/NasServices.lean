import NasServices.Adapters.FileNames
import NasServices.Common.DoubleSlash
import NasServices.Common.NasThread
import NasServices.Common.NoExistFilePath
import NasServices.Common.SendToMessageCenter
import NasServices.Common.SimpleUrlFetcher
import NasServices.Dlna.Casts
import NasServices.Dlna.PlayUrls
import NasServices.Dlna.SeekTime
import NasServices.Dlna.StatusQueries
import NasServices.Dlna.StopCount
import NasServices.Download.Db.ClearTableData
import NasServices.Download.Db.Distinct
import NasServices.Download.Db.Restarts
import NasServices.Download.Db.Restored
import NasServices.Download.Db.TorrentSource
import NasServices.Download.EngineParam
import NasServices.Download.FileNameRule
import NasServices.Download.OwnFiles
import NasServices.Download.ResetWaits
import NasServices.Download.SavePathQueue
import NasServices.Download.SeedingLimits
import NasServices.Download.SharedObjects
import NasServices.Download.SortTask
import NasServices.Download.Task.InPlace
import NasServices.Download.Task.LiveTransfer
import NasServices.Download.UserSelfMgr.Batch
import NasServices.Download.UserSelfMgr.Capacity
import NasServices.Download.UserSelfMgr.Categories
import NasServices.Download.UserSelfMgr.EngineStart
import NasServices.Download.UserSelfMgr.Params
import NasServices.Download.UserSelfMgr.ParsePaths
import NasServices.Download.UserSelfMgr.Restoring
import NasServices.Download.UserSelfMgr.Slots
import NasServices.Download.UserSelfMgr.TaskRuns
import NasServices.Encrypt.DecryptInMemory
import NasServices.FileUtils.GetFiles
import NasServices.Grpc.CallPhases
import NasServices.Grpc.GrpcStubEnv
import NasServices.Media.Exchange
import NasServices.Mule.FinishedFile
import NasServices.Mule.TaskHash
import NasServices.NetBt.DirectorySizes
import NasServices.NetBt.FilePriorities
import NasServices.NetBt.Lifetime
import NasServices.NetBt.PathLength
import NasServices.NetCurl.Perform
import NasServices.NetCurl.Progress
import NasServices.NetCurl.Resume
import NasServices.NetCurl.UrlFileName
